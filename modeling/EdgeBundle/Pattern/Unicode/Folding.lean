/-!
# Simple case folding

The character that stands for each group of characters which differ in case only.
-/

namespace EdgeBundle.Unicode

/-- Folded characters. An entry `gap:more:step:delta`, in base 36, starts `gap` code points after
the start of the entry before it; it stands for that code point and `more` further ones at distance
`step`, each of which folds to the code point at distance `delta` from it. -/
def foldings : List String :=
  ["1t:p:1:w 38:0:1:lj b:m:1:w o:6:1:w 14:n:2:1 1e:2:2:1 7:7:2:1 h:m:2:1 1a:0:1:-3d 1:2:2:1",
   "6:0:1:-7g 2:0:1:5u 1:1:2:1 4:0:1:5q 1:0:1:1 2:1:1:5p 2:0:1:1 3:0:1:27 1:0:1:5m 1:0:1:5n",
   "1:0:1:1 2:0:1:5p 1:0:1:5r 2:0:1:5v 1:0:1:5t 1:0:1:1 4:0:1:5v 1:0:1:5x 2:0:1:5y 1:2:2:1",
   "6:0:1:62 1:0:1:1 2:0:1:62 3:0:1:1 2:0:1:62 1:0:1:1 2:1:1:61 2:1:2:1 4:0:1:63 1:0:1:1 4:0:1:1",
   "8:0:1:2 1:0:1:1 2:0:1:2 1:0:1:1 2:0:1:2 1:8:2:1 j:8:2:1 j:0:1:2 1:1:2:1 4:0:1:-2p 1:0:1:-1k",
   "1:j:2:1 14:0:1:-3m 2:8:2:1 o:0:1:8bv 1:0:1:1 2:0:1:-4j 1:0:1:8bs 3:0:1:1 2:0:1:-5f 1:0:1:1x",
   "1:0:1:1z 1:4:2:1 73:0:1:38 17:1:2:1 6:0:1:1 9:0:1:38 7:0:1:12 2:2:1:11 4:0:1:1s 2:1:1:1r",
   "3:g:1:w i:8:1:w v:0:1:1 d:0:1:8 1:0:1:-u 1:0:1:-p 4:0:1:-f 1:0:1:-m 2:b:2:1 o:0:1:-1i",
   "1:0:1:-1c 3:0:1:-1o 1:0:1:-1s 2:0:1:1 2:0:1:-7 1:0:1:1 3:2:1:-3m 3:f:1:28 g:v:1:w 28:g:2:1",
   "16:q:2:1 1i:0:1:f 1:6:2:1 f:1b:2:1 2p:11:1:1c 29b:11:1:5ls 13:0:1:5ls 6:0:1:5ls mj:5:1:-8",
   "1oo:0:1:-4su 1:0:1:-4st 1:0:1:-4sk 1:1:1:-4si 2:0:1:-4sj 1:0:1:-4sc 1:0:1:-4ro 1:0:1:r7n",
   "1:0:1:1 7:16:1:-2bk 19:2:1:-2bk 8z:22:2:1 4b:0:1:-1m 3:0:1:-5vj 2:1b:2:1 2w:7:1:-8 g:5:1:-8",
   "g:7:1:-8 g:7:1:-8 g:5:1:-8 h:3:2:-8 f:7:1:-8 w:7:1:-8 g:7:1:-8 g:7:1:-8 g:1:1:-8 2:1:1:-22",
   "2:0:1:-9 2:0:1:-5j9 a:3:1:-2e 4:0:1:-9 7:0:1:-5kz 5:1:1:-8 2:1:1:-2s 9:0:1:-5kj 5:1:1:-8",
   "2:1:1:-34 2:0:1:-7 c:1:1:-3k 2:1:1:-3i 2:0:1:-9 8a:0:1:-5st 4:0:1:-6gv 1:0:1:-6di 7:0:1:s",
   "1a:f:1:g z:0:1:1 mr:p:1:q 1fu:1b:1:1c 2o:0:1:1 2:0:1:-8af 1:0:1:-2xy 1:0:1:-89z 3:2:2:1",
   "6:0:1:-8bg 1:0:1:-8al 1:0:1:-8bj 1:0:1:-8bi 2:0:1:1 3:0:1:1 9:1:1:-8cf 2:1d:2:1 2z:1:2:1",
   "7:0:1:1 nym:m:2:1 1s:d:2:1 4i:6:2:1 g:u:2:1 1z:1:2:1 4:0:1:-r9g 1:4:2:1 d:0:1:1 2:0:1:-wmg",
   "3:1:2:1 6:9:2:1 k:0:1:-wn8 1:0:1:-wnj 1:0:1:-wnf 1:0:1:-wn5 1:0:1:-wn8 2:0:1:-wlu 1:0:1:-wmi",
   "1:0:1:-wlx 1:0:1:ps 1:7:2:1 g:0:1:-1c 1:0:1:-wn7 1:0:1:-raw 1:1:2:1 4:0:1:-wo7 1:0:1:1",
   "4:0:1:1 6:2:2:1 6:0:1:-wu9 p:0:1:1 or:27:1:-tzk fpx:0:1:1 t8:p:1:w yn:13:1:14 4w:z:1:14",
   "5c:a:1:13 c:e:1:13 g:6:1:13 8:1:1:13 1d8:1e:1:1s 5s:l:1:w 28g:v:1:w gww:v:1:w o8w:x:1:y"]

end EdgeBundle.Unicode
