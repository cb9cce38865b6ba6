import ReactiveModel.Text.Ranges

/-! Letters, decimal digits and capitals of the Unicode character database, version 15.0.
The tables begin at U+0080; below it the classes are the ones of ASCII. -/

namespace ReactiveModel.Text

def letterTable : List Run := Run.table
  ["aa b 5 6+16 2+1e 2+1c9 5+b f+4 8 2 82+4 2+1 3+3 2 7 2+2 2 2+13 2+52 2+8a 9+a5 2+25 3 7+28",
   "5d0+1a 5+3 2e+2a 24+1 2+62 2 10+1 8+1 b+2 3 11 2+1d 1e+58 c 19+20 a+1 5 6+15 5 a 4 18+18 8+a",
   "870+17 2+5 12+29 3b+35 4 13 8+9 10+f 5+7 3+1 3+15 2+6 2 4+3 4 11 e+1 2+2 f+1 b 9+5 5+1 3+15",
   "a2a+6 2+1 2+1 2+1 20+3 2 14+2 11+8 2+2 2+15 2+6 2+1 2+4 4 13 10+1 18 c+7 3+1 3+15 2+6 2+1 2+4",
   "b3d 1f+1 2+2 10 12 2+5 4+2 2+3 4+1 2 2+1 4+1 4+2 4+b 17 35+7 2+2 2+16 2+f 4 1b+2 3 3+1 1f 5+7",
   "c8e+2 2+16 2+9 2+4 4 20+1 2+1 10+1 12+8 2+2 2+28 3 11 6+2 9+2 19+5 6+11 4+17 2+8 2 3+6 3b+2f",
   "e32+1 d+6 3b+1 2 2+4 2+17 2 2+9 2+1 a 3+4 2 16+3 21 40+7 2+23 1c+4 74+2a 15 11+5 5+3 4 4+1 8+2",
   "1075+c d 12+25 2 6 3+2a 2+14c 2+3 3+6 2 2+3 3+28 2+3 3+20 2+3 3+6 2 2+3 3+e 2+38 2+3 3+42 26+f",
   "13a0+55 3+5 4+26b 3+10 2+19 6+4a 7+7 8+11 e+12 f+11 f+c 2+2 10+33 24 5 44+58 8+4 3+21 2 6+45",
   "1900+1e 32+1d 3+4 c+2b 5+19 37+16 a+34 53 5e+2e 12+7 37+1d e+1 b+2b 1b+23 2a+2 b+23 3+8 8+2a",
   "1cbd+2 2a+3 2+5 2+1 4 6+bf 41+115 3+5 3+25 3+5 3+7 2 2 2 2+1e 3+34 2+6 2 4+2 2+6 4+3 3+5 5+c",
   "1ff2+2 2+6 75 e 11+c 66 5 3+9 2 4+4 7 2 2 2+3 2+a 3+3 6+4 5 35+1 a7c+e4 7+3 4+1 d+25 2 6 3+37",
   "2d6f 11+16 a+6 2+6 2+6 2+6 2+6 2+6 2+6 2+6 51 1d6+1 2b+4 6+1 5+55 7+2 2+59 2+3 6+2a 2+5d 12+1f",
   "31f0+f 201+19bf 41+568c 44+2d 3+10c 4+f b+1 15+2e 11+1e 3+45 32+8 3+66 3+3f 6+1 2 2+4 19+f 2+2",
   "a807+3 2+16 1e+33 f+31 3f+5 4 2+1 c+1b b+16 1a+1c 8+2e 1d 11+4 2+9 b+4 2+28 18+2 2+7 15+16 4",
   "aa7e+31 2 4+1 3+4 3 2 19+2 3+a 8+2 d+5 3+5 3+5 a+6 2+6 2+2a 2+d 7+72 1e+2ba3 d+16 5+30",
   "f900+16d 3+69 27+6 d+4 6 2+9 2+c 2+4 2 2+1 2+1 2+6b 22+16a 13+3f 3+35 29+b 75+4 2+86 25+19",
   "ff41+19 c+58 4+5 3+5 3+5 3+2 24+b 2+19 2+12 2+1 2+e 3+d 23+7a 186+1c 4+30 30+1f e+13 2+7 7+25",
   "10380+1d 3+23 5+7 31+9d 13+23 5+23 5+27 9+33 d+a 2+e 2+6 2+1 2+a 2+e 2+6 2+1 44+136 a+15 b+7",
   "10780+5 2+29 2+8 46+5 3 2+2b 2+1 4 3+16 b+16 a+1e 42+12 2+1 b+15 b+19 47+37 7+1 41 10+3 2+2",
   "10a19+1c 2b+1c 4+1c 24+7 2+1b 1c+35 b+15 b+12 e+11 6f+48 38+32 e+32 e+23 15d+29 7+1 4f+1c b",
   "10f30+15 2b+11 2f+14 1c+16 d+34 3a+1 3 e+2c 21+18 1b+23 1e 3 9+22 4 d+2f f+3 16 2 24+11 2+18",
   "1123f+1 40+6 2 2+3 2+e 2+9 8+2e 27+7 3+1 3+15 2+6 2+1 2+4 4 13 d+4 9f+34 13+3 15+2 1f+2f 15+1",
   "114c7 b9+2e 2a+3 25+2f 15 3c+2a e 48+1a 26+6 ba+2b 75+3f 20+7 3 3+7 2+1 2+17 10 2 5f+7 3+26 11",
   "119e3 1d b+27 8 16 c+2d 14 13+48 108+8 2+24 12 32+1d 71+6 2+1 2+25 16 1a+5 2+1 2+1f f 148+12",
   "11f02 2+c 2+21 7d 50+399 e7+c3 a4d+60 10+42f 12+5 fba+246 21ba+238 8+1e 12+4e 12+1d 13+2f 11+3",
   "16b63+14 6+12 2b1+3f 81+4a 6 43+c 41+1 2 1d+17f7 9+4d5 2b+8 22e8+3 2+6 2+1 2+122 10 1e+2 3 f+3",
   "1b170+18b 905+6a 6+c 4+8 8+9 1767+54 2+46 2+1 3 3+1 3+3 2+b 2 2+6 2+40 2+3 3+7 2+6 2+1b 2+3",
   "1d540+4 2 4+6 2+153 3+18 2+18 2+1e 2+18 2+1e 2+18 2+1e 2+18 2+1e 2+18 2+7 735+1e 7+5 106+3d",
   "1e100+2c b+6 11 142+1d 13+2b 1e5+1b 2f5+6 2+3 2+1 2+e 2+c4 3c+43 8 4b5+3 2+1a 2+1 2 3 2+9 2+3",
   "1ee39 2 7 5 2 2 2+2 2+1 2 3 2 2 2 2 2+1 2 3+3 2+6 2+3 2+3 2 2+9 2+10 6+2 2+4 2+10 1145+a6df",
   "2a700+1039 7+dd 3+1681 f+1d30 c20+21d 5e3+134a 6+105f"]

def digitTable : List Run := Run.table
  ["660+9 87+9 c7+9 19d+9 77+9 77+9 77+9 77+9 77+9 77+9 77+9 77+9 77+9 61+9 77+9 47+9 117+9 47+9",
   "17e0+9 27+9 12d+9 81+9 a7+9 7+9 b7+9 57+9 87+9 7+9 89c7+9 2a7+9 27+9 c7+9 17+9 57+9 197+9",
   "ff10+9 587+9 887+9 32d+9 81+9 3d+9 91+9 117+9 157+9 77+9 177+9 67+9 67+9 1a7+9 67+9 2f7+9 f7+9",
   "11da0+9 1a7+9 4b07+9 57+9 87+9 6c75+31 941+9 1a7+9 1f7+9 457+9 1297+9"]

def capitalTable : List Run := Run.table
  ["c0+16 2+6 22+36/2 3+e/2 3+2c/2 2+1 2 2 4+1 2 2+1 2+2 3+3 2+1 2+2 4+1 2+1 2 2 2+1 2 3 2+1 2+2 2",
   "1b7+1 4 8 3 3 3+e/2 3+10/2 3 3 2+2 2+38/2 8+1 2+1 3 2+3 2+6/2 122 2 4 9 7 2+2 2 2+1 2+10 2+8",
   "3cf 3+2 4+16/2 6 3 2+1 3+32 31+20/2 a+34/2 2+1 2+a/2 3+5e/2 3+25 b4a+25 2 6 2d3+55 89b+2a 3+2",
   "1e00+94/2 a+60/2 a+7 9+5 b+7 9+7 9+5 c+6/2 9+7 49+3 d+3 d+3 d+4 c+3 107 5 4+2 3+2 3 4+4 7+4/2",
   "212a+3 3+3 b+1 6 3e a7d+2f 31 2+2 3+4/2 2+3 2 3 9+2 2+60/2 9 2 5 794e+2c/2 14+1a/2 88+c/2",
   "a732+3c/2 b 2 2+1 2+6/2 5 2 3 2 4+12/2 2+4 2+4 2+c/2 2+3 2 7 6 2 1d 572c+19 4c6+27 89+23 9d+a",
   "1057c+e 2+6 2+1 6eb+32 bee+1f 5581+1f 65a1+19 1b+19 1b+19 1b 2+1 3 3+1 3+3 2+7 1b+19 1b+1 2+3",
   "1d50d+7 2+6 1c+1 2+3 2+4 2 4+6 1c+19 1b+19 1b+19 1b+19 1b+19 1b+19 1f+18 22+18 22+18 22+18",
   "1d790+18 22 1136+21"]

/-- General category L. -/
def isLetter (c : Char) : Bool :=
  if c.toNat < 0x80 then c.isAlpha else inTable letterTable c

/-- General category Nd. -/
def isDigit (c : Char) : Bool :=
  if c.toNat < 0x80 then c.isDigit else inTable digitTable c

/-- General category Lu. -/
def isCapital (c : Char) : Bool :=
  if c.toNat < 0x80 then c.isUpper else inTable capitalTable c

end ReactiveModel.Text
