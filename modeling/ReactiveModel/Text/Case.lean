import ReactiveModel.Text.Ranges

/-! Simple case mappings of the Unicode character database, version 15.0: one character to one
character, without regard to language or context. -/

namespace ReactiveModel.Text

def lowerTable : List Run := Run.table
  ["c0+16:+20 2+6:+20 22+2e/2:+1 2:-c7 2+4/2:+1 3+e/2:+1 3+2c/2:+1 2:-79 1+4/2:+1 4:+d2 1+2/2:+1",
   "186:+ce 1:+1 2+1:+cd 1:+1 3:+4f 1:+ca 1:+cb 1:+1 2:+cd 1:+cf 2:+d3 1:+d1 1:+1 4:+d3 1:+d5",
   "19f:+d6 1+4/2:+1 2:+da 1:+1 2:+da 3:+1 2:+da 1:+1 2+1:+d9 1+2/2:+1 2:+db 1:+1 4:+1 8:+2 1:+1",
   "1c7:+2 1:+1 2:+2 1+10/2:+1 3+10/2:+1 3:+2 1+2/2:+1 2:-61 1:-38 1+26/2:+1 2:-82 2+10/2:+1",
   "23a:+2a2b 1:+1 2:-a3 1:+2a28 3:+1 2:-c3 1:+45 1:+47 1+8/2:+1 122+2/2:+1 4:+1 9:+74 7:+26",
   "388+2:+25 2:+40 2+1:+3f 2+10:+20 2+8:+20 24:+8 9+16/2:+1 6:-3c 3:+1 2:-7 1:+1 3+2:-82 1+f:+50",
   "410+1f:+20 31+20/2:+1 a+34/2:+1 2:+f 1+c/2:+1 3+5e/2:+1 3+25:+30 b4a+25:+1c60 2:+1c60 6:+1c60",
   "13a0+4f:+97d0 1+5:+8 89b+2a:-bc0 3+2:-bc0 141+94/2:+1 a:-1dbf 2+5e/2:+1 a+7:-8 9+5:-8 b+7:-8",
   "1f38+7:-8 9+5:-8 c+6/2:-8 9+7:-8 19+7:-8 9+7:-8 9+7:-8 9+1:-8 1+1:-4a 1:-9 c+3:-56 1:-9 c+1:-8",
   "1fda+1:-64 d+1:-8 1+1:-70 1:-7 c+1:-80 1+1:-7e 1:-9 12a:-1d5d 4:-20bf 1:-2046 7:+1c 2e+f:+10",
   "2183:+1 333+19:+1a 731+2f:+30 31:+1 2:-29f7 1:-ee6 1:-29e7 3+4/2:+1 2:-2a1c 1:-29fd 1:-2a1f",
   "2c70:-2a1e 2:+1 3:+1 9+1:-2a3f 1+62/2:+1 9+2/2:+1 5:+1 794e+2c/2:+1 14+1a/2:+1 88+c/2:+1",
   "a732+3c/2:+1 b+2/2:+1 2:-8a04 1+8/2:+1 5:+1 2:-a528 3+2/2:+1 4+12/2:+1 2:-a544 1:-a54f 1:-a54b",
   "a7ad:-a541 1:-a544 2:-a512 1:-a52a 1:-a515 1:+3a0 1+e/2:+1 2:-30 1:-a543 1:-8a38 1+2/2:+1 7:+1",
   "a7d6+2/2:+1 1d:+1 572c+19:+20 4c6+27:+28 89+23:+28 9d+a:+27 2+e:+27 2+6:+27 2+1:+27 6eb+32:+40",
   "118a0+1f:+20 5581+1f:+20 7aa1+21:+22"]

def upperTable : List Run := Run.table
  ["b5:+2e7 2b+16:-20 2+6:-20 1:+79 2+2e/2:-1 2:-e8 2+4/2:-1 3+e/2:-1 3+2c/2:-1 3+4/2:-1 1:-12c",
   "180:+c3 3+2/2:-1 3:-1 4:-1 6:-1 3:+61 4:-1 1:+a3 4:+82 3+4/2:-1 3:-1 5:-1 3:-1 4+2/2:-1 3:-1",
   "1bd:-1 2:+38 6:-1 1:-2 2:-1 1:-2 2:-1 1:-2 2+e/2:-1 1:-4f 2+10/2:-1 3:-1 1:-2 2:-1 4+26/2:-1",
   "223+10/2:-1 9:-1 3+1:+2a3f 2:-1 5+8/2:-1 1:+2a1f 1:+2a1c 1:+2a1e 1:-d2 1:-ce 2+1:-cd 2:-ca",
   "25b:-cb 1:+a54f 4:-cd 1:+a54b 2:-cf 2:+a528 1:+a544 2:-d1 1:-d3 1:+a544 1:+29f7 1:+a541 3:-d3",
   "271:+29fd 1:-d5 3:-d6 8:+29e7 3:-da 2:+a543 1:-da 4:+a52a 1:-da 1:-45 1+1:-d9 1:-47 6:-db",
   "29d:+a515 1:+a512 a7:+54 2c+2/2:-1 4:-1 4+2:+82 2f:-26 1+2:-25 2+10:-20 1:-1f 1+8:-20 1:-40",
   "3cd+1:-3f 2:-3e 1:-39 4:-2f 1:-36 1:-8 2+16/2:-1 1:-56 1:-50 1:+7 1:-74 2:-60 3:-1 3:-1",
   "430+1f:-20 1+f:-50 2+20/2:-1 a+34/2:-1 3+c/2:-1 1:-f 2+5e/2:-1 32+25:-30 b4a+2a:+bc0 3+2:+bc0",
   "13f8+5:-8 883:-186e 1:-186d 1:-1864 1+1:-1862 1:-1863 1:-185c 1:-1825 1:+89c2 f1:+8a04 4:+ee6",
   "1d8e:+8a38 73+94/2:-1 6:-3b 6+5e/2:-1 1+7:+8 9+5:+8 b+7:+8 9+7:+8 9+5:+8 c+6/2:+8 9+7:+8",
   "1f70+1:+4a 1+3:+56 1+1:+64 1+1:+80 1+1:+70 1+1:+7e 3+7:+8 9+7:+8 9+7:+8 9+1:+8 2:+9 b:-1c25",
   "1fc3:+9 d+1:+8 f+1:+8 4:+7 e:+9 15b:-1c 22+f:-10 5:-1 34c+19:-1a 747+2f:-30 2:-1 4:-2a2b",
   "2c66:-2a28 2+4/2:-1 7:-1 3:-1 b+62/2:-1 9+2/2:-1 5:-1 d+25:-1c60 2:-1c60 6:-1c60 7914+2c/2:-1",
   "a681+1a/2:-1 88+c/2:-1 4+3c/2:-1 b+2/2:-1 3+8/2:-1 5:-1 5+2/2:-1 1:+30 3+12/2:-1 c+e/2:-1",
   "a7c8+2/2:-1 7:-1 6+2/2:-1 1d:-1 35d:-3a0 1d+4f:-97d0 5382+19:-20 4ce+27:-28 89+23:-28 9c+a:-27",
   "105a3+e:-27 2+6:-27 2+1:-27 704+32:-40 bce+1f:-20 5581+1f:-20 7aa3+21:-22"]

def toLower (c : Char) : Char :=
  if c.toNat < 0x80 then c.toLower else mapTable lowerTable c

def toUpper (c : Char) : Char :=
  if c.toNat < 0x80 then c.toUpper else mapTable upperTable c

def lowerCase (s : String) : String := s.map toLower

end ReactiveModel.Text
