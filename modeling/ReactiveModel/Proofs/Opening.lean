import Mathlib.Data.List.Basic
import ReactiveModel.Source.LayoutFile

/-! The opening of a layout. Whatever is laid out goes behind what is there, so the first pieces
stay the first, and build constraints are noted only behind them. -/

namespace ReactiveModel.Source

/-- A layout that begins with some pieces, none of which is a build constraint. -/
structure Layout.Opens (ps : List Piece) (s : Layout) : Prop where
  pieces : ps <+: s.pieces.toList
  goBuild : ∀ i ∈ s.goBuild, ps.length ≤ i
  plusBuild : ∀ i ∈ s.plusBuild, ps.length ≤ i

namespace Layout.Opens

variable {ps : List Piece} {s : Layout}

lemma foldl_push (qs : List Piece) {pieces : Array Piece} (h : ps <+: pieces.toList) :
    ps <+: (qs.foldl Array.push pieces).toList := by
  induction qs generalizing pieces with
  | nil => exact h
  | cons q qs ih =>
    refine ih ?_
    rw [Array.toList_push]
    exact h.trans (List.prefix_append _ _)

lemma length_le_size (h : s.Opens ps) : ps.length ≤ s.pieces.size := by
  simpa using h.pieces.length_le

end Layout.Opens

namespace Lay

/-- An action that leaves the opening of a layout alone. Instances follow the way in which actions
are put together, so that of most actions it can be inferred. -/
class Keeps (ps : List Piece) {α : Type} (m : Lay α) : Prop where
  opens : ∀ s, s.Opens ps → (m.run s).2.Opens ps

section

variable {ps : List Piece} {α β : Type}

instance keeps_pure (a : α) : Keeps ps (pure a : Lay α) := ⟨fun _ h => h⟩

instance keeps_get : Keeps ps (get : Lay Layout) := ⟨fun _ h => h⟩

instance keeps_bind {m : Lay α} {f : α → Lay β} [hm : Keeps ps m] [hf : ∀ a, Keeps ps (f a)] :
    Keeps ps (m >>= f) :=
  ⟨fun s h => (hf _).opens _ (hm.opens s h)⟩

lemma keeps_get_bind {f : Layout → Lay α} (hf : ∀ s, s.Opens ps → Keeps ps (f s)) :
    Keeps ps (get >>= f) :=
  ⟨fun s h => (hf s h).opens s h⟩

instance keeps_ite {p : Prop} [Decidable p] {a b : Lay α} [ha : Keeps ps a] [hb : Keeps ps b] :
    Keeps ps (if p then a else b) := by
  split <;> assumption

instance keeps_andM {a b : Lay Bool} [ha : Keeps ps a] [hb : Keeps ps b] :
    Keeps ps (a <&&> b) := by
  refine @keeps_bind _ _ _ _ _ ha fun r => ?_
  cases r with
  | false => exact keeps_pure false
  | true => exact hb

instance keeps_forIn {xs : List α} {b : β} {f : α → β → Lay (ForInStep β)}
    [hf : ∀ a b, Keeps ps (f a b)] : Keeps ps (forIn xs b f) := by
  induction xs generalizing b with
  | nil => exact keeps_pure b
  | cons x xs ih =>
    rw [List.forIn_cons]
    refine @keeps_bind _ _ _ _ _ (hf x b) fun r => ?_
    cases r with
    | done b => exact keeps_pure b
    | yield b => exact ih

instance keeps_forIn_range {r : Std.Legacy.Range} {b : β} {f : Nat → β → Lay (ForInStep β)}
    [hf : ∀ a b, Keeps ps (f a b)] : Keeps ps (forIn r b f) := by
  rw [Std.Legacy.Range.forIn_eq_forIn_range']
  infer_instance

lemma keeps_modify_of {f : Layout → Layout} (h : ∀ s, s.Opens ps → (f s).Opens ps) :
    Keeps ps (modify f : Lay Unit) :=
  ⟨h⟩

instance keeps_modify (indent : Layout → Nat) (base : Layout → Int) (level : Layout → Nat)
    (verbatim measuring : Layout → Bool) (sizes : Layout → Std.HashMap (Nat × Nat × Nat) Nat)
    (noBlank noBreak endAlignment endsStatement : Layout → Bool)
    (lastToken lastOpen : Layout → Option Kind) (held : Layout → Array Space) (pos : Layout → Pos)
    (line column : Layout → Nat) (last : Layout → Pos) (wanted : Layout → Option Nat)
    (marks : Layout → Array Nat) (comments : Layout → Array (List Comment))
    (nextComment : Layout → Nat) (comment : Layout → List Comment) (commentOffset : Layout → Nat)
    (commentBreaks : Layout → Bool) :
    Keeps ps (modify fun s => ⟨s.pieces, indent s, base s, level s, verbatim s, measuring s,
      sizes s, noBlank s, noBreak s, endAlignment s, endsStatement s, lastToken s, lastOpen s,
      held s, pos s, line s, column s, last s, wanted s, marks s, comments s, nextComment s,
      comment s, commentOffset s, commentBreaks s, s.goBuild, s.plusBuild⟩ : Lay Unit) :=
  keeps_modify_of fun _ h => ⟨h.pieces, h.goBuild, h.plusBuild⟩

end

/-! White space, words and comments. -/

section

variable {ps : List Piece} {s : Layout} {n : Nat}

instance keeps_fetchComment : Keeps ps fetchComment := by
  refine keeps_modify_of fun s h => ?_
  split <;> exact ⟨h.pieces, h.goBuild, h.plusBuild⟩

instance keeps_commentBefore (next : Pos) : Keeps ps (commentBefore next) := by
  unfold commentBefore
  infer_instance

lemma opens_pushIndent (h : s.Opens ps) : (pushIndent s).Opens ps :=
  ⟨Layout.Opens.foldl_push _ h.pieces, h.goBuild, h.plusBuild⟩

lemma opens_atColumn (h : s.Opens ps) : (if s.column == 1 then pushIndent s else s).Opens ps := by
  split
  · exact opens_pushIndent h
  · exact h

instance keeps_writeSpace (p : Piece) (n : Nat) : Keeps ps (writeSpace p n) := by
  refine keeps_modify_of fun s h => ?_
  split
  rename_i q t heq
  have ht : t.Opens ps := by
    split at heq
    · split at heq <;> cases heq <;> exact ⟨h.pieces, h.goBuild, h.plusBuild⟩
    · cases heq
      exact h
  have hindented := opens_atColumn ht
  dsimp only
  split <;>
    exact ⟨Layout.Opens.foldl_push _ hindented.pieces, hindented.goBuild, hindented.plusBuild⟩

instance keeps_writeWord (at_ : Pos) (w : String) : Keeps ps (writeWord at_ w) := by
  refine keeps_modify_of fun s h => ?_
  have hindented := opens_atColumn h
  have hplaced : Layout.Opens ps (let s := if s.column == 1 then pushIndent s else s
      if at_.isSome then { s with pos := at_ } else s) := by
    dsimp only
    split <;> exact ⟨hindented.pieces, hindented.goBuild, hindented.plusBuild⟩
  dsimp only at hplaced ⊢
  split <;>
    exact ⟨Layout.Opens.foldl_push [_] hplaced.pieces, hplaced.goBuild, hplaced.plusBuild⟩

instance keeps_writeHeld (fuel : Nat) (held : List Space) : Keeps ps (writeHeld fuel held) := by
  fun_induction writeHeld fuel held <;> infer_instance

instance keeps_release (n : Nat) : Keeps ps (release n) := by
  unfold release
  infer_instance

instance keeps_writeCommentFront (at_ next : Pos) (before : Option Comment)
    (token : Option Kind) : Keeps ps (writeCommentFront at_ next before token) := by
  unfold writeCommentFront
  infer_instance

instance keeps_writeCommentLines (at_ : Pos) (ls : List (List Char)) (first : Bool) :
    Keeps ps (writeCommentLines at_ ls first) := by
  induction ls generalizing first with
  | nil => exact keeps_pure ()
  | cons l ls ih =>
    unfold writeCommentLines
    infer_instance

lemma keeps_noteGoBuild (h : ps.length ≤ n) :
    Keeps ps (modify fun s => { s with goBuild := s.goBuild.push n } : Lay Unit) := by
  refine keeps_modify_of fun s hs => ⟨hs.pieces, fun i hi => ?_, hs.plusBuild⟩
  rcases Array.mem_push.mp hi with hi | rfl
  · exact hs.goBuild i hi
  · exact h

lemma keeps_notePlusBuild (h : ps.length ≤ n) :
    Keeps ps (modify fun s => { s with plusBuild := s.plusBuild.push n } : Lay Unit) := by
  refine keeps_modify_of fun s hs => ⟨hs.pieces, hs.goBuild, fun i hi => ?_⟩
  rcases Array.mem_push.mp hi with hi | rfl
  · exact hs.plusBuild i hi
  · exact h

instance keeps_writeComment (c : Comment) : Keeps ps (writeComment c) := by
  unfold writeComment
  split
  · -- constraints are noted where the next piece will stand
    refine keeps_get_bind fun s hs => ?_
    have := keeps_noteGoBuild hs.length_le_size
    have := keeps_notePlusBuild hs.length_le_size
    infer_instance
  · cases (c.text.splitOn "\n").map String.toList <;> infer_instance

instance keeps_writeCommentBack (need : Bool) : Keeps ps (writeCommentBack need) := by
  unfold writeCommentBack
  infer_instance

instance keeps_writeGroup (next : Pos) (token : Option Kind) (cs : List Comment)
    (before : Option Comment) : Keeps ps (writeGroup next token cs before) := by
  induction cs generalizing before with
  | nil => exact keeps_pure before
  | cons c cs ih =>
    unfold writeGroup
    infer_instance

instance keeps_writeComments (next : Pos) (token : Option Kind) (fuel : Nat)
    (before : Option Comment) : Keeps ps (writeComments next token fuel before) := by
  induction fuel generalizing before with
  | zero => exact keeps_pure (before, none)
  | succ fuel ih =>
    refine @keeps_bind _ _ _ _ _ inferInstance fun comes => @keeps_ite _ _ _ _ _ _ ?_ inferInstance
    refine @keeps_bind _ _ _ _ _ keeps_get fun s => ?_
    dsimp only
    generalize s.comment.getLast? = last
    cases s.comment <;> cases last <;> infer_instance

instance keeps_flush (next : Pos) (token : Option Kind) : Keeps ps (flush next token) := by
  refine @keeps_bind _ _ _ _ _ inferInstance fun comes => @keeps_ite _ _ _ _ _ _ ?_ inferInstance
  refine @keeps_bind _ _ _ _ _ keeps_get fun s => @keeps_bind _ _ _ _ _ inferInstance fun r => ?_
  rcases r with ⟨_ | last, _ | early⟩ <;> infer_instance

/-! Tokens. -/

instance keeps_noteOpen : Keeps ps noteOpen := by
  refine keeps_modify_of fun s h => ?_
  split <;> exact ⟨h.pieces, h.goBuild, h.plusBuild⟩

instance keeps_space (w : Space) : Keeps ps (space w) := by
  unfold space
  infer_instance

instance keeps_blank : Keeps ps blank := keeps_space .blank

instance keeps_setPos (p : Pos) : Keeps ps (setPos p) := by
  unfold setPos
  infer_instance

instance keeps_mark : Keeps ps (modify fun s =>
    match s.wanted with
    | some i => { s with marks := s.marks.setIfInBounds i s.line, wanted := none }
    | none => s : Lay Unit) := by
  refine keeps_modify_of fun s h => ?_
  split <;> exact ⟨h.pieces, h.goBuild, h.plusBuild⟩

instance keeps_emit (text : String) (kind : Kind) (ends : Bool) :
    Keeps ps (emit text kind ends) := by
  unfold emit
  infer_instance

instance keeps_tokenOf (kind : Kind) (text : String) : Keeps ps (tokenOf kind text) := by
  unfold tokenOf
  cases kind <;> infer_instance

instance keeps_op (s : String) : Keeps ps (op s) := keeps_tokenOf _ s

instance keeps_word (s : String) : Keeps ps (word s) := keeps_tokenOf _ s

instance keeps_semicolonMark : Keeps ps semicolonMark := keeps_tokenOf _ _

instance keeps_opAt (p : Pos) (s : String) : Keeps ps (opAt p s) := by
  unfold opAt
  infer_instance

instance keeps_ident (s : String) : Keeps ps (ident s) := by
  unfold ident
  infer_instance

instance keeps_name (n : Name) : Keeps ps (name n) := by
  unfold name
  infer_instance

instance keeps_literal (kind : Kind) (text : String) : Keeps ps (literal kind text) := by
  unfold literal
  infer_instance

instance keeps_lineBreak (line least : Nat) (w : Space) (section_ : Bool) :
    Keeps ps (lineBreak line least w section_) := by
  unfold lineBreak
  infer_instance

instance keeps_record : Keeps ps record := by
  unfold record
  infer_instance

instance keeps_grewSince (i : Nat) : Keeps ps (grewSince i) := by
  unfold grewSince
  infer_instance

end

end Lay

open Lay

/-- A printer whose entries leave openings alone. -/
class Printer.Keeps (ps : List Piece) (pr : Printer) : Prop where
  expr : ∀ x prec depth, Lay.Keeps ps (pr.expr x prec depth)
  stmt : ∀ s braceFollows, Lay.Keeps ps (pr.stmt s braceFollows)

attribute [instance] Printer.Keeps.expr Printer.Keeps.stmt

section

variable {ps : List Piece}

instance keeps_sizeWritten (part : Span) (act : Lay Unit) (most : Nat) :
    Lay.Keeps ps (sizeWritten part act most) := by
  have hsizes : Lay.Keeps ps (modifyGet fun s => (s.sizes, { s with sizes := ∅ }) : Lay _) :=
    ⟨fun s h => ⟨h.pieces, h.goBuild, h.plusBuild⟩⟩
  refine @keeps_bind _ _ _ _ _ hsizes fun sizes => ?_
  split <;> infer_instance

end

namespace Printer

variable {ps : List Piece} {pr : Printer} [pr.Keeps ps]

-- instances of long actions are long terms
set_option synthInstance.maxSize 100000

instance keeps_expr₀ (x : Expr) (depth : Nat) : Lay.Keeps ps (pr.expr₀ x depth) :=
  inferInstanceAs (Lay.Keeps ps (pr.expr x 0 depth))

instance keeps_plain (x : Expr) : Lay.Keeps ps (pr.plain x) :=
  inferInstanceAs (Lay.Keeps ps (pr.expr x 0 1))

instance keeps_exprSize (x : Expr) (most : Nat) : Lay.Keeps ps (pr.exprSize x most) :=
  keeps_sizeWritten _ _ _

instance keeps_elementSize (x : Expr) : Lay.Keeps ps (pr.elementSize x) := by
  unfold elementSize
  cases x <;> infer_instance

instance keeps_exprList (before : Pos) (list : List Expr) (depth : Nat) (mode : ListMode)
    (next : Pos) : Lay.Keeps ps (pr.exprList before list depth mode next) := by
  unfold exprList
  split
  · -- the elements follow at once, or behind a line break that may change what is held back
    refine @keeps_ite _ _ _ _ _ _ inferInstance (@keeps_ite _ _ _ _ _ _
      (@keeps_bind _ _ _ _ _ inferInstance fun n => @keeps_ite _ _ _ _ _ _ ?_ ?_) ?_) <;>
      refine @keeps_bind _ _ _ _ _ (@keeps_forIn _ _ _ _ _ _ fun x s => ?_) fun s => inferInstance
    all_goals cases x <;> infer_instance
  · infer_instance

instance keeps_nameList (names : List Name) (indented : Bool) :
    Lay.Keeps ps (pr.nameList names indented) :=
  keeps_exprList _ _ _ _ _

instance keeps_parameters (l : FieldList) (mode : ParamMode) :
    Lay.Keeps ps (pr.parameters l mode) := by
  unfold parameters
  infer_instance

instance keeps_signature (s : Signature) : Lay.Keeps ps (pr.signature s) := by
  rcases s with ⟨typeParams, params, results⟩
  unfold signature
  rcases results with _ | r
  · cases typeParams <;> infer_instance
  · dsimp only
    rcases r.fields with _ | ⟨f, _ | ⟨f', fs⟩⟩ <;> cases typeParams <;> infer_instance

instance keeps_methodField (f : Field) : Lay.Keeps ps (pr.methodField f) := by
  unfold methodField
  split <;> infer_instance

instance keeps_fitsOneLine (fields : List Field) : Lay.Keeps ps (pr.fitsOneLine fields) := by
  unfold fitsOneLine
  split <;> infer_instance

instance keeps_fieldLines (isRecord : Bool) (fields : List Field) :
    Lay.Keeps ps (pr.fieldLines isRecord fields) := by
  refine @keeps_bind _ _ _ _ _ (@keeps_forIn _ _ _ _ _ _ fun f s => ?_) fun s => inferInstance
  rcases f with ⟨span, names, type, _ | tag, annotated⟩ <;> infer_instance

instance keeps_fieldList (isRecord : Bool) (lbrace : Pos) (fields : List Field) (rbrace : Pos) :
    Lay.Keeps ps (pr.fieldList isRecord lbrace fields rbrace) := by
  unfold fieldList
  infer_instance

instance keeps_stmtList (stmts : List Stmt) (depth : Nat) (braceFollows : Bool) :
    Lay.Keeps ps (pr.stmtList stmts depth braceFollows) := by
  refine @keeps_ite _ _ _ _ _ _ (@keeps_bind _ _ _ _ _ inferInstance fun _ => ?_) ?_ <;>
    refine @keeps_bind _ _ _ _ _ (@keeps_forIn _ _ _ _ _ _ fun s r => ?_) fun r => inferInstance
  all_goals cases s <;> infer_instance

instance keeps_block (b : Block) (depth : Nat) : Lay.Keeps ps (pr.block b depth) := by
  unfold block
  infer_instance

instance keeps_stmtSize (s : Stmt) (most : Nat) : Lay.Keeps ps (pr.stmtSize s most) :=
  keeps_sizeWritten _ _ _

instance keeps_commentSize (next : Pos) : Lay.Keeps ps (commentSize next) := by
  unfold commentSize
  infer_instance

instance keeps_bodySize (b : Block) (most : Nat) : Lay.Keeps ps (pr.bodySize b most) := by
  unfold bodySize
  infer_instance

instance keeps_functionBody (headerSize : Nat) (sep : Space) (b : Block) :
    Lay.Keeps ps (pr.functionBody headerSize sep b) := by
  unfold functionBody
  infer_instance

instance keeps_distanceFrom (start : Pos) (column : Nat) :
    Lay.Keeps ps (distanceFrom start column) := by
  unfold distanceFrom
  infer_instance

instance keeps_binaryExpr (x : Expr) (opPos : Pos) (o : String) (y : Expr) (cut depth : Nat) :
    Lay.Keeps ps (pr.binaryExpr x opPos o y cut depth) := by
  unfold binaryExpr
  infer_instance

instance keeps_selectorExpr (x : Expr) (sel : Name) (depth : Nat) (isCall : Bool) :
    Lay.Keeps ps (pr.selectorExpr x sel depth isCall) := by
  unfold selectorExpr
  infer_instance

instance keeps_sliceBounds (low high max : Option Expr) (depth : Nat) :
    Lay.Keeps ps (pr.sliceBounds low high max depth) := by
  refine @keeps_bind _ _ _ _ _ (@keeps_forIn _ _ _ _ _ _ fun x before => ?_) fun s => inferInstance
  cases x <;> cases before <;> infer_instance

instance keeps_callExpr (callee : Expr) (lparen : Pos) (args : List Expr) (dots rparen : Pos)
    (depth : Nat) : Lay.Keeps ps (pr.callExpr callee lparen args dots rparen depth) := by
  unfold callExpr
  cases callee <;> infer_instance

instance keeps_compositeExpr (type : Option Expr) (lbrace : Pos) (elements : List Expr)
    (rbrace : Pos) (depth : Nat) :
    Lay.Keeps ps (pr.compositeExpr type lbrace elements rbrace depth) := by
  unfold compositeExpr
  cases type <;> infer_instance

instance keeps_exprBody (e : Expr) (prec depth : Nat) :
    Lay.Keeps ps (pr.exprBody e prec depth) := by
  unfold exprBody
  cases e with
  | literal span kind text => cases kind <;> infer_instance
  | paren span x rparen => cases x <;> infer_instance
  | assertion span x lparen type rparen => cases type <;> infer_instance
  | index span x lbrack indices rbrack =>
    rcases indices with _ | ⟨i, _ | ⟨j, js⟩⟩ <;> infer_instance
  | ellipsis span type => cases type <;> infer_instance
  | array span len elem => cases len <;> infer_instance
  | channel span dir arrow value => cases dir <;> infer_instance
  | _ => infer_instance

/-! Declarations and statements. -/

instance keeps_valueColumns (s : Spec) (keepType : Bool) :
    Lay.Keeps ps (pr.valueColumns s keepType) := by
  unfold valueColumns
  cases s with
  | value span names type values annotated => cases type <;> infer_instance
  | _ => infer_instance

instance keeps_measureTail (annotated : Bool) : Lay.Keeps ps (measureTail annotated) := by
  unfold measureTail
  infer_instance

instance keeps_spec (s : Spec) (n : Nat) (indented : Bool) :
    Lay.Keeps ps (pr.spec s n indented) := by
  unfold spec
  cases s with
  | imported localName path stop lead tail => cases localName <;> cases path <;> infer_instance
  | value span names type values annotated => cases type <;> infer_instance
  | type span declared params assign type annotated => cases params <;> infer_instance

instance keeps_group (g : Group) : Lay.Keeps ps (pr.group g) := by
  rcases g with ⟨documented, span, keyword, lparen, specs, rparen⟩
  unfold group
  infer_instance

instance keeps_decl (d : Decl) : Lay.Keeps ps (pr.decl d) := by
  unfold decl
  cases d with
  | group g => infer_instance
  | function documented span receiver declared sig body =>
    cases receiver <;> cases body <;> infer_instance

instance keeps_clause (isLoop : Bool) (init : Option Stmt) (test : Option Expr)
    (post : Option Stmt) : Lay.Keeps ps (pr.clause isLoop init test post) := by
  unfold clause
  cases init <;> cases test <;> cases post <;> infer_instance

instance keeps_stmtBody (s : Stmt) (braceFollows : Bool) :
    Lay.Keeps ps (pr.stmtBody s braceFollows) := by
  unfold stmtBody
  cases s with
  | labeled span label colon inner => cases inner <;> infer_instance
  | branch span w label => cases label <;> infer_instance
  | cond span init test body alternative => cases alternative <;> infer_instance
  | typeSwitch span init guard body => cases init <;> infer_instance
  | comm span action colon body => cases action <;> infer_instance
  | range span key value opPos o x body => cases key <;> cases value <;> infer_instance
  | _ => infer_instance

end Printer

/-- Printers of all depths leave openings alone. -/
instance Printer.keeps_upTo (ps : List Piece) (depth : Nat) : (Printer.upTo depth).Keeps ps := by
  induction depth with
  | zero => exact ⟨fun _ _ _ => keeps_pure (), fun _ _ => keeps_pure ()⟩
  | succ depth ih => exact ⟨Printer.keeps_exprBody, Printer.keeps_stmtBody⟩

instance Printer.keeps_declList {ps : List Piece} {pr : Printer} [pr.Keeps ps] (ds : List Decl) :
    Lay.Keeps ps (pr.declList ds) := by
  unfold declList
  infer_instance

end ReactiveModel.Source
