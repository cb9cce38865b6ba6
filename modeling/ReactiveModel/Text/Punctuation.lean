import ReactiveModel.Text.Ranges

/-! Punctuation of the Unicode character database, version 15.0. The table begins at U+0080. -/

namespace ReactiveModel.Text

def punctuationTable : List Run := Run.table
  ["a1 6 4 b+1 4 4 2bf 9 1d3+5 2a+1 34 2 3 3 2d+1 15+1 2+1 e 2+2 4b+3 67 2c+d ea+2 37+e 20 106+1 b",
   "9fd 79 7a 187 d 170 5b b+1 a9+e 2 26+3 48 4b+4 5+1 70+5 ac 265+8 98 26e 2d+1 4f+2 48+1 9e+2",
   "17d8+2 26+a 13a+1 d9+1 81+6 2+5 ad+6 1d+1 7e+3 3c+4 3f+1 41+7 c 33d+17 9+13 2+c 2+b 1f+1 f+1",
   "2308+3 1e+1 43e+d 50+1 20+9 194+15 40+3 21+1 2fc+3 2+1 71 90+2e 2+1f 3+b 1a4+2 5+9 3+b 11 d 63",
   "30fb 7403+1 10e+2 64 b 74+5 17d+3 57+1 29+2 2 32+1 30 62+c 11+1 7d+3 7f+1 11+1 fa 5153+1 d1+9",
   "fe30+22 2+d 2 5 2+1 96+2 2+5 2+3 b+1 4+1 1b+2 2 1c 2 2+6 19b+2 29d 31 19f 2e8 c8 20 111+8 27",
   "10af0+6 43+6 5a+3 311 a8+4 2d+3 be+6 6e+1 2+3 7f+3 31+1 50+3 5 e 2+2 59+5 6c 1a2+4 b+1 2 69",
   "115c1+16 6a+2 1d+c 4d 83+2 fd 109+2 9c 5d+7 54+2 2+4 5e+9 138+4 2b+1 286+1 4b+c b0 471+4 b7d+1",
   "16a6e+1 86 42+4 9 353+3 148 4cbd 1de8+4 ed3+1"]

/-- General category P. -/
def isPunctuation (c : Char) : Bool :=
  if c.toNat < 0x80 then
    "!\"#%&'()*,-./:;?@[\\]_\x7b\x7d".toList.contains c
  else inTable punctuationTable c

end ReactiveModel.Text
