/-! Pieces of laid-out text: words and the white space between them. Tabs end a cell of a table;
a form feed is a line break that also ends the table. -/

namespace ReactiveModel.Source

inductive Piece
  | word (s : String)
  | blank
  | tab
  /-- End of a cell that is to be aligned. -/
  | cell
  | newline
  | formfeed
deriving DecidableEq

def Piece.isBreak : Piece → Bool
  | .newline | .formfeed => true
  | _ => false

end ReactiveModel.Source
