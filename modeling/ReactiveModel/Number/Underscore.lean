import ReactiveModel.Text.Ranges

/-! Underscores that group the digits of a written number. -/

namespace ReactiveModel.Underscore

/-- Whether each underscore stands behind a digit and before a digit, where the flags tell whether
a digit or an underscore came last. -/
def fitFrom (hexadecimal : Bool) : Bool → Bool → List Char → Bool
  | _, afterUnderscore, [] => !afterUnderscore
  | afterDigit, afterUnderscore, c :: cs =>
    if c == '_' then afterDigit && fitFrom hexadecimal false true cs
    else if c.isDigit || (hexadecimal && (Text.hexValue? c).isSome) then
      fitFrom hexadecimal true false cs
    else !afterUnderscore && fitFrom hexadecimal false false cs

/-- Whether the underscores of a number without sign group its digits. The mark of a base counts as
a digit. -/
def fit : List Char → Bool
  | '0' :: m :: cs =>
    let mark := m.toLower
    if mark == 'b' || mark == 'o' || mark == 'x' then fitFrom (mark == 'x') true false cs
    else fitFrom false false false ('0' :: m :: cs)
  | cs => fitFrom false false false cs

end ReactiveModel.Underscore
