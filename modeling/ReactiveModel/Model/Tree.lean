/-! Trees with ordered children, and walks over them. -/

namespace ReactiveModel

inductive Tree (α : Type)
  | node (value : α) (children : List (Tree α))

namespace Tree

variable {α σ ε : Type}

instance [Inhabited α] : Inhabited (Tree α) := ⟨.node default []⟩

def value : Tree α → α
  | .node a _ => a

def children : Tree α → List (Tree α)
  | .node _ ts => ts

inductive Turn (ε : Type)
  | descend
  | skip
  | stop (e : ε)

mutual

/-- Visits nodes before their children and children in order. The visitor may leave out what is
below a node or end the walk. -/
def walk (visit : α → σ → Turn ε × σ) : Tree α → σ → Option ε × σ
  | .node a ts, s =>
    match visit a s with
    | (.skip, s) => (none, s)
    | (.stop e, s) => (some e, s)
    | (.descend, s) => walkAll visit ts s

def walkAll (visit : α → σ → Turn ε × σ) : List (Tree α) → σ → Option ε × σ
  | [], s => (none, s)
  | t :: ts, s =>
    match walk visit t s with
    | (some e, s) => (some e, s)
    | (none, s) => walkAll visit ts s

end

/-- What a visitor may say at a node. The wish to leave out what is below it may be wrapped in other
words and joined with other replies. -/
inductive Reply (ε : Type)
  | skipChildren
  | plain (e : ε)
  | wrap (e : ε) (cause : Reply ε)
  | join (parts : List (Reply ε))

mutual

def Reply.skips : Reply ε → Bool
  | .skipChildren => true
  | .plain _ => false
  | .wrap _ r => r.skips
  | .join rs => anySkips rs

def Reply.anySkips : List (Reply ε) → Bool
  | [] => false
  | r :: rs => r.skips || anySkips rs

end

def Reply.turn : Option (Reply ε) → Turn (Reply ε)
  | none => .descend
  | some r => if r.skips then .skip else .stop r

/-- A walk with a visitor that replies. It ends with the reply that stopped it; one that only leaves
something out is no such reply. -/
def tour (visit : α → σ → Option (Reply ε) × σ) (t : Tree α) (s : σ) : Option (Reply ε) × σ :=
  let (r?, s) := t.walk (fun a s => (visit a s).map Reply.turn id) s
  (r?.filter (!·.skips), s)

def nodes (t : Tree α) : List α :=
  (walk (fun a s => ((.descend : Turn Empty), a :: s)) t []).2.reverse

def find? (p : α → Bool) (t : Tree α) : Option α :=
  (walk (fun a s => if p a then (.stop (), some a) else (.descend, s)) t none).2

mutual

/-- The nodes in the order of a walk, each with the node above it. -/
def withParents (parent : Option α) : Tree α → List (Option α × α)
  | .node a ts => (parent, a) :: withParentsAll a ts

def withParentsAll (parent : α) : List (Tree α) → List (Option α × α)
  | [] => []
  | t :: ts => withParents (some parent) t ++ withParentsAll parent ts

end

end Tree

end ReactiveModel
