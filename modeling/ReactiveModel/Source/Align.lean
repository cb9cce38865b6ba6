import ReactiveModel.Source.Piece

/-! Elastic tabs. Cells of adjacent lines that stand in the same column are padded to a common
width; indentation cells become tabs, other cells are padded with blanks. -/

namespace ReactiveModel.Source

/-- A cell: its words and blanks, its width in characters, and whether a tab ended it. -/
structure Cell where
  content : List Piece
  width : Nat
  indent : Bool

abbrev Line := List Cell

def Piece.width : Piece → Nat
  | .word s => s.length
  | .blank => 1
  | _ => 0

/-- A stretch of a line: text, or white space that is dropped at the end of a line. -/
inductive Stretch
  | text (s : String)
  | space (s : String)

def Stretch.ofPiece : Piece → List Stretch
  | .word s => [.text s]
  | .blank => [.space " "]
  | _ => []

/-- Columns are padded to multiples of this width when the padding is made of tabs. -/
def tabWidth : Nat := 8

def padding (textWidth cellWidth : Nat) (tabs : Bool) : Stretch :=
  if tabs then
    let w := (cellWidth + tabWidth - 1) / tabWidth * tabWidth
    .space ("".pushn '\t' ((w - textWidth + tabWidth - 1) / tabWidth))
  else .space ("".pushn ' ' (cellWidth - textWidth))

def writeCells : Line → List Nat → Bool → List Stretch
  | [], _, _ => []
  | c :: cs, widths, tabs =>
    let tabs := tabs && c.content.isEmpty
    let pad := match widths with
      | w :: _ => [padding c.width w tabs]
      | [] => []
    c.content.flatMap Stretch.ofPiece ++ pad ++ writeCells cs widths.tail tabs

def dropSpace : List Stretch → List Stretch
  | .space _ :: r => dropSpace r
  | r => r

def writeLine (widths : List Nat) (l : Line) : String :=
  (dropSpace (writeCells l widths true).reverse).reverse.foldl
    (fun s x => match x with | .text t => s ++ t | .space t => s ++ t) ""

/-- Width of a column: the widest cell and a blank, or nothing when all its cells are empty. -/
def columnWidth (column : Nat) (lines : List Line) : Nat :=
  let cells := lines.filterMap (·[column]?)
  if cells.all fun c => c.width == 0 && !c.indent then 0
  else cells.foldl (fun w c => max w (c.width + 1)) 0

/-- Whether a line has a cell in this column; the last cell of a line is in no column. -/
def reaches (column : Nat) (l : Line) : Bool := column + 1 < l.length

def runsBy (p : Line → Bool) : List Line → List (Bool × List Line)
  | [] => []
  | l :: ls =>
    match runsBy p ls with
    | (b, r) :: rest => if b == p l then (b, l :: r) :: rest else (p l, [l]) :: (b, r) :: rest
    | [] => [(p l, [l])]

/-- Lays out lines whose first columns have the given widths; the fuel is the number of cells of
the longest line. -/
def layColumns : Nat → List Nat → List Line → List String
  | 0, widths, lines => lines.map (writeLine widths)
  | fuel + 1, widths, lines =>
    (runsBy (reaches widths.length) lines).flatMap fun (reached, run) =>
      if reached then layColumns fuel (widths ++ [columnWidth widths.length run]) run
      else run.map (writeLine widths)

def layTable (lines : List Line) : List String :=
  layColumns (lines.foldl (fun n l => max n l.length) 0) [] lines

structure Tables where
  cell : List Piece := []
  line : List Cell := []
  table : List Line := []
  done : List String := []

def Tables.endCell (t : Tables) (indent : Bool) : Tables :=
  let content := t.cell.reverse
  { t with
    cell := []
    line := ⟨content, content.foldl (fun n p => n + p.width) 0, indent⟩ :: t.line }

def Tables.endTable (t : Tables) : Tables :=
  { t with table := [], done := (layTable t.table.reverse).reverse ++ t.done }

/-- A line without tabs ends the table after it, as does a form feed. -/
def Tables.endLine (t : Tables) (formfeed : Bool) : Tables :=
  let t := t.endCell false
  let single := t.line.length == 1
  let t := { t with line := [], table := t.line.reverse :: t.table }
  if formfeed || single then t.endTable else t

def Tables.push (t : Tables) : Piece → Tables
  | .tab => t.endCell true
  | .cell => t.endCell false
  | .newline => t.endLine false
  | .formfeed => t.endLine true
  | p => { t with cell := p :: t.cell }

def align (pieces : Array Piece) : String :=
  let t := pieces.foldl Tables.push {}
  let t := (if t.cell.isEmpty && t.line.isEmpty then t else t.endLine false).endTable
  let text := "\n".intercalate t.done.reverse
  if pieces.back?.any Piece.isBreak then text ++ "\n" else text

end ReactiveModel.Source
