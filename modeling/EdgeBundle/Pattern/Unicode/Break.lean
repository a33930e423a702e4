import EdgeBundle.Pattern.Unicode.Table

/-!
# Text boundaries

The classes by which a text is divided into user characters, words and sentences, as far as they do
not follow from other properties.
-/

namespace EdgeBundle.Unicode

/-- Classes for user characters. -/
def graphemeBreaks : Table :=
  [(["cr"],
      ["d"]),
    (["cn", "control"],
      ["0:9 1:1 1:h 2n:w d 12m 3jl 1ks 2:1 o:6 1d:f 17yn 6o:b ab8:f qxs:3 43z:7 h405:v 2o:3j",
       "6o:2rz"]),
    (["l"],
      ["3cw:2n u0w:s"]),
    (["lf"],
      ["a"]),
    (["lv"],
      ["xz4 r r r r r r r r r r r r r r r r r r r r r r r r r r r r r r r r r r r r r r r r r r",
       "r r r r r r r r r r r r r r r r r r r r r r r r r r r r r r r r r r r r r r r r r r r r",
       "r r r r r r r r r r r r r r r r r r r r r r r r r r r r r r r r r r r r r r r r r r r r",
       "r r r r r r r r r r r r r r r r r r r r r r r r r r r r r r r r r r r r r r r r r r r r",
       "r r r r r r r r r r r r r r r r r r r r r r r r r r r r r r r r r r r r r r r r r r r r",
       "r r r r r r r r r r r r r r r r r r r r r r r r r r r r r r r r r r r r r r r r r r r r",
       "r r r r r r r r r r r r r r r r r r r r r r r r r r r r r r r r r r r r r r r r r r r r",
       "r r r r r r r r r r r r r r r r r r r r r r r r r r r r r r r r r r r r r r r r r r r r",
       "r r r r r r r r r r r r r r r r r r r r r r r r r r r r r r r r r r r r r r r r r r r r",
       "r r r r"]),
    (["lvt"],
      ["xz5:q 1:q 1:q 1:q 1:q 1:q 1:q 1:q 1:q 1:q 1:q 1:q 1:q 1:q 1:q 1:q 1:q 1:q 1:q 1:q 1:q",
       "1:q 1:q 1:q 1:q 1:q 1:q 1:q 1:q 1:q 1:q 1:q 1:q 1:q 1:q 1:q 1:q 1:q 1:q 1:q 1:q 1:q 1:q",
       "1:q 1:q 1:q 1:q 1:q 1:q 1:q 1:q 1:q 1:q 1:q 1:q 1:q 1:q 1:q 1:q 1:q 1:q 1:q 1:q 1:q 1:q",
       "1:q 1:q 1:q 1:q 1:q 1:q 1:q 1:q 1:q 1:q 1:q 1:q 1:q 1:q 1:q 1:q 1:q 1:q 1:q 1:q 1:q 1:q",
       "1:q 1:q 1:q 1:q 1:q 1:q 1:q 1:q 1:q 1:q 1:q 1:q 1:q 1:q 1:q 1:q 1:q 1:q 1:q 1:q 1:q 1:q",
       "1:q 1:q 1:q 1:q 1:q 1:q 1:q 1:q 1:q 1:q 1:q 1:q 1:q 1:q 1:q 1:q 1:q 1:q 1:q 1:q 1:q 1:q",
       "1:q 1:q 1:q 1:q 1:q 1:q 1:q 1:q 1:q 1:q 1:q 1:q 1:q 1:q 1:q 1:q 1:q 1:q 1:q 1:q 1:q 1:q",
       "1:q 1:q 1:q 1:q 1:q 1:q 1:q 1:q 1:q 1:q 1:q 1:q 1:q 1:q 1:q 1:q 1:q 1:q 1:q 1:q 1:q 1:q",
       "1:q 1:q 1:q 1:q 1:q 1:q 1:q 1:q 1:q 1:q 1:q 1:q 1:q 1:q 1:q 1:q 1:q 1:q 1:q 1:q 1:q 1:q",
       "1:q 1:q 1:q 1:q 1:q 1:q 1:q 1:q 1:q 1:q 1:q 1:q 1:q 1:q 1:q 1:q 1:q 1:q 1:q 1:q 1:q 1:q",
       "1:q 1:q 1:q 1:q 1:q 1:q 1:q 1:q 1:q 1:q 1:q 1:q 1:q 1:q 1:q 1:q 1:q 1:q 1:q 1:q 1:q 1:q",
       "1:q 1:q 1:q 1:q 1:q 1:q 1:q 1:q 1:q 1:q 1:q 1:q 1:q 1:q 1:q 1:q 1:q 1:q 1:q 1:q 1:q 1:q",
       "1:q 1:q 1:q 1:q 1:q 1:q 1:q 1:q 1:q 1:q 1:q 1:q 1:q 1:q 1:q 1:q 1:q 1:q 1:q 1:q 1:q 1:q",
       "1:q 1:q 1:q 1:q 1:q 1:q 1:q 1:q 1:q 1:q 1:q 1:q 1:q 1:q 1:q 1:q 1:q 1:q 1:q 1:q 1:q 1:q",
       "1:q 1:q 1:q 1:q 1:q 1:q 1:q 1:q 1:q 1:q 1:q 1:q 1:q 1:q 1:q 1:q 1:q 1:q 1:q 1:q 1:q 1:q",
       "1:q 1:q 1:q 1:q 1:q 1:q 1:q 1:q 1:q 1:q 1:q 1:q 1:q 1:q 1:q 1:q 1:q 1:q 1:q 1:q 1:q 1:q",
       "1:q 1:q 1:q 1:q 1:q 1:q 1:q 1:q 1:q 1:q 1:q 1:q 1:q 1:q 1:q 1:q 1:q 1:q 1:q 1:q 1:q 1:q",
       "1:q 1:q 1:q 1:q 1:q 1:q 1:q 1:q 1:q 1:q 1:q 1:q 1:q 1:q 1:q 1:q 1:q 1:q 1:q 1:q 1:q 1:q",
       "1:q 1:q 1:q 1:q"]),
    (["pp", "prepend"],
      ["16o:5 5z 1d ao:1 28 vf 1f8u f 6s:1 el 12l 1 6w 21:5 jg cb"]),
    (["ri", "regionalindicator"],
      ["2qcm:p"]),
    (["sm", "spacingmark"],
      ["1s3 1j 2:2 8:3 1:1 1e:1 1n:1 6:1 2:1 1i 1m:2 1u 1m:2 8 1:1 1h:1 1o 6:1 2:1 36 1:1 3:2",
       "1:2 1g:2 1p:3 1p:1 1m 2 1:1 1a e:1 1n:1 5:2 1:2 1h:1 24:1 6:6 j:1 1r 3j 3u:1 1r 4x 9:1",
       "p:1 18 1f5 7:7 1:1 9m:3 2:2 4:1 1:5 68:1 1m 1 l:5 41 1l:3 1s u 4:1 1r 2:2 1 1h:7 8:1 4r",
       "l rhn:1 2 2g:1 1e:f 3y 1c 1c:1 4:1 2:1 33:1 2:1 o 4d 2:1 5 6l:1 1:1 1:1 1 jrn 1 3j 19:2",
       "4:1 37 o:1 1n 1c:2 9 e 2l:2 3:1 4s:2 v:1 1n 1:3 2:1 2:1 l:1 2d:1 f 1:1 2v:2 8:1 3 2z:1 6",
       "1:1 1 2 6m:1 6:3 2 35:2 8:1 1 31 1:1 32 7 79:2 9 6w:4 1:1 7 1 3y:2 8:3 4 2c t:1 1q bb e",
       "2y 7 2 5x:4 4:1 1 9q:1 c 1c:1 8:1 d0q:2 2sk:1i"]),
    (["t"],
      ["3hk:2f 132j:1c"]),
    (["v"],
      ["3fk:1z 1348:m tjw 3:3"]),
    (["zwj"],
      ["6bx"])]

/-- Classes for words. -/
def wordBreaks : Table :=
  [(["le", "aletter"],
      ["1t:p 6:p 1b a 2 1 5:m 1:u 1:db 6:x 34:4 1:1 2:3 1 6 1:2 1 1:j 1:2a 1:3u 8:4l 1:11 2:3 1",
       "1:14 1 2w 18:16 z:1 1:2q 1 f:1 7:1 a:2 2 f:1 1:t t:2g b o:w 9:1 4 5:l 4 9 3 n:o 7:a 5:n",
       "1:5 h:15 1m:1h 3 i 7:9 f:f 4:7 2:1 2:l 1:6 1 3:3 3 g d:1 1:2 e:1 a 8:5 4:1 2:l 1:6 1:1",
       "1:1 1:1 v:3 1 j:2 g:8 1:2 1:l 1:6 1:1 1:4 3 i f:1 n b:7 2:1 2:l 1:6 1:1 1:4 3 u:1 1:2 f",
       "h 1:5 3:2 1:3 3:1 1 1:1 3:1 3:2 3:b m 1g:7 1:2 1:m 1:f 3 q:2 2 2:1 u 4:7 1:2 1:m 1:9 1:4",
       "3 v:1 1:1 f:1 h:8 1:2 1:14 2 g 5:2 8:2 o:5 5:h 3:n 1:8 1 2:6 8p 1r:7 1:z r:4 7n:11 1 5",
       "2:16 1:98 1:3 2:6 1 1:3 2:14 1:3 2:w 1:3 2:6 1 1:3 2:e 1:1k 1:3 2:1u 11:f g:2d 2:5 3:h7",
       "2:g 1:p 5:22 3:a 7:h d:i e:h e:c 1:2 4v:2g 7:4 2:x 1 5:1x a:u 69:m 6m:1a h:7 1i:t d:1",
       "a:17 q:z 15:2 a:z 2:a 5:16 2:2 15:3 1:5 1:1 3 5:5b 1s:7p 2:5 2:11 2:5 2:7 1 1 1 1:u 2:1g",
       "1:6 1 3:2 1:6 3:3 2:5 4:c 5:2 1:6 38 d g:c 2t 4 2:9 1 3:4 6 1 1 1:3 1:a 2:3 5:4 4 h:14",
       "ml:1f 1ee:6c 6:3 3:1 c:11 1 5 2:1j 7 g:m 9:6 1:6 1:6 1:6 1:6 1:6 1:6 1:6 28 d1 1h:1",
       "5k:16 1:2l h:v ls0:wc 1v:19 2:7g 3:f a:1 k:1a g:u 2:27 o:5h 2:1 1 1:7 l:f 1:2 1:3 1:m",
       "t:1f e:1d 1q:5 3 1:1 b:r a:m p:s 7:1a s 1c:14 n:2 1:7 44:a 7:2 c:5 2:5 2:5 9:6 1:6 1:1l",
       "6:36 t:8mb c:m 4:1c 6x0:6 c:4 1k:2p x:a2 i:1r 2:1h 14:b 38:4 1:3q 10:p 6:p 1x:u 3:5 2:5",
       "2:5 2:2 z:b 1:p 1:i 1:1 1:e 2:d y:3e 1x:1g 7f:s 3:1c 1b:v d:t 5:11 a:t 2:z 4:7 1:4 16:4d",
       "i:z 4:z 4:13 8:1f c:a 1:e 1:6 1:1 1:a 1:e 1:6 1:1 3:1f c:8m 9:l a:7 o:5 1:15 1:8 1x:5 2",
       "1:17 1:1 3 2:m a:m 9:u 1t:i 1:1 a:l a:p 1y:1j 6:1 1s f:3 1:2 1:s 16:s 3:s z:7 1:r r:1h",
       "a:l a:i d:h 32:20 1j:1e d:1e d:z 12:r 9:m 6y:15 6:1 g:2 1n:s a 8:l 16:h 1a:k r:m c:1g",
       "1l:1 2 d:18 w:o q:z t 2 8:y 3 c:1b e:3 l 1 z:h 1:o j:1 1r:6 1 1:3 1:e 1:9 7:1a 12:7 2:1",
       "2:l 1:6 1:1 1:4 3 i c:4 u:9 1 2 1:11 1 p 1 18:1g i:3 k:2 u:1b k:1 1 54:1a 15:3 10:1b k",
       "1n:16 d 93:17 38:1r v:7 2 2:7 1:1 1:n f 1 2m:7 2:12 g 1 s a:13 7 l b:19 j i:20 5j:w v:8",
       "1:10 h 1d:t 34:6 1:1 1:11 l p:5 1:1 1:v e 93:i f 1:c 1:x 3g 27:pl 2u:32 h:5f 218:2o f:tr",
       "h:5 p:32y 5:g6 5a1:t 1cy:fs 7:u h:26 h:t i:1b g:3 v:k 5:i c0:18 5v:1r 3k:22 5 1u:c 1s:1",
       "1 f18:2y 5:c 3:8 7:9 4me:2c 1:1y 1:1 2 2:1 2:3 1:b 1 1:6 1:1s 1:3 2:7 1:6 1:r 1:3 1:4 1",
       "3:6 1:9f 2:o 1:o 1:u 1:o 1:u 1:o 1:u 1:o 1:u 1:o 1:7 1f8:u 6:5 79:1p 42:18 a:6 g 8x:t",
       "i:17 dg:r 6c:t 2 dr:6 1:3 1:1 1:e 1:5g 1n:1v 7 xg:3 1:q 1:1 1 2 1:9 1:3 1 1 6 4 1 1 1:2",
       "1:1 1 2 1 1 1 1 1:1 1 2:3 1:6 1:3 1:3 1 1:9 1:g 5:2 1:4 1:g hg:p 6:p 6:p"]),
    (["cr"],
      ["d"]),
    (["dq", "doublequote"],
      ["y"]),
    (["ex", "extendnumlet"],
      ["2n 6a7 f:1 j 17tq:1 o:2 6n"]),
    (["fo", "format"],
      ["4t 12m 3jl 1kv:1 q:4 1d:4 1:9 17yn 6x:2 ab8:f qxs:3 43z:7 h406"]),
    (["hl", "hebrewletter"],
      ["15c:q 4:3 1cfe 1:9 1:c 1:4 1 1:1 1:1 1:9"]),
    (["ka", "katakana"],
      ["9ip:4 2t:1 3:2i 1:3 6o:f 5s:1a 1:2f 14b2:1j ytu:3 1:6 1:1 1 7z:2 1e e:3"]),
    (["lf"],
      ["a"]),
    (["ml", "midletter"],
      ["1m 3g jz d3 44 56a 17u3 1t 5g"]),
    (["mn", "midnum"],
      ["18 e n6 ei 3m:1 2m az 4sr 17uz 3 53 e"]),
    (["mb", "midnumlet"],
      ["1a 6ax:1 a 17vx 50 6"]),
    (["nl", "newline"],
      ["b:1 3c 68y:1"]),
    (["ri", "regionalindicator"],
      ["2qcm:p"]),
    (["sq", "singlequote"],
      ["13"]),
    (["wsegspace"],
      ["w 4f3 1vj:6 1:2 2c 334"]),
    (["zwj"],
      ["6bx"])]

/-- Classes for sentences. -/
def sentenceBreaks : Table :=
  [(["at", "aterm"],
      ["1a 6b9 17vx 57"]),
    (["cr"],
      ["d"]),
    (["cl", "close"],
      ["y 4:2 1d 1 t 1 19 f 2v2:3 1gd:1 1vf:7 p:1 a:1 1i:1 e:1 hl:3 t:1 ts:5 7:d 27:1 v:9 b7:l",
       "1r:3 w:1 si:d e:1 2:9 o i:7 bv:9 2:7 1:2 14im:1 5z:1 s:f 2:1 g:5 4p:1 1d 1 t 1 1:1 1:1",
       "1csy:2"]),
    (["fo", "format"],
      ["4t 12m 6q 3cu 1ks 2:1 q:4 1d:4 1:9 17yn 6x:2 ab8:f qxs:3 43z:7 h406"]),
    (["lf"],
      ["a"]),
    (["sc", "scontinue"],
      ["18:1 c:1 n6 da 4u:1 dm 361 5 1l6:1 358 14pa:1 1:1 s:1 t:1 2:1 2 a 4o:1 c:1 20"]),
    (["se", "sep"],
      ["3p 68y:1"]),
    (["sp"],
      ["9 1:1 j 3j 4bj 1vj:a 10 1b 334"])]

end EdgeBundle.Unicode
