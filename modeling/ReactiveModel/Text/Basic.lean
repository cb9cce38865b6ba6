import ReactiveModel.Text.Printable
import ReactiveModel.Text.Utf8

/-! Texts of a model. A description may hold any bytes where it should hold UTF-8, so a text is a
list of bytes. Its pieces are characters, and bytes that belong to none; those stand for themselves
wherever the text is kept, and for U+FFFD where it is shown. -/

namespace ReactiveModel

structure Text where
  bytes : List UInt8 := []
deriving DecidableEq, Inhabited

namespace Text

def ofString (s : String) : Text := ⟨s.toList.flatMap String.utf8EncodeChar⟩

instance : Coe String Text := ⟨ofString⟩

instance : Append Text := ⟨fun a b => ⟨a.bytes ++ b.bytes⟩⟩

/-- Texts are ordered by their bytes. -/
instance : LT Text := ⟨fun a b => a.bytes < b.bytes⟩

instance : LE Text := ⟨fun a b => a.bytes ≤ b.bytes⟩

instance (a b : Text) : Decidable (a < b) := inferInstanceAs (Decidable (a.bytes < b.bytes))

instance (a b : Text) : Decidable (a ≤ b) := inferInstanceAs (Decidable (a.bytes ≤ b.bytes))

instance : Trans (· < · : Text → Text → Prop) (· < ·) (· < ·) where
  trans {a b c} (h : a.bytes < b.bytes) (h' : b.bytes < c.bytes) := List.lt_trans h h'

instance : Std.Irrefl (· < · : Text → Text → Prop) where
  irrefl a := List.lt_irrefl a.bytes

instance : Std.Trichotomous (· < · : Text → Text → Prop) where
  trichotomous a b h h' := by
    have he : a.bytes = b.bytes := Std.Trichotomous.trichotomous (r := (· < ·)) _ _ h h'
    cases a; cases b; simpa using he

def pieces (t : Text) : List Piece := piecesOf t.bytes.length t.bytes

def ofPieces (ps : List Piece) : Text := ⟨ps.flatMap Piece.bytes⟩

def shown (t : Text) : String := ofUtf8 t.bytes

/-- The text itself, if it has no stray bytes. -/
def toString? (t : Text) : Option String := ofUtf8? t.bytes

def join (ts : List Text) : Text := ⟨ts.flatMap bytes⟩

def intercalate (gap : Text) (ts : List Text) : Text := ⟨gap.bytes.intercalate (ts.map bytes)⟩

def isSpacePiece (p : Piece) : Bool := p.char?.any isSpace

def trim (t : Text) : Text :=
  ofPieces ((t.pieces.dropWhile isSpacePiece).reverse.dropWhile isSpacePiece).reverse

def isBlank (t : Text) : Bool := t.pieces.all isSpacePiece

def startsWith (t : Text) (s : String) : Bool := (ofString s).bytes.isPrefixOf t.bytes

/-- Whether a byte of the text is one of some characters of ASCII. -/
def hasAny (t : Text) (s : String) : Bool := t.bytes.any (ofString s).bytes.contains

end Text

end ReactiveModel
