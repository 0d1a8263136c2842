import RemoteIndex.Text.Runs

/-!
# Directions of characters

The bidirectional classes that matter in domain names, and the rule that keeps the labels of a
name readable when some of its characters run from right to left.
-/

namespace RemoteIndex.Url.Domain

open RemoteIndex.Text

/-- The bidirectional classes. -/
inductive Direction where
  | leftToRight
  | rightToLeft
  | arabicLetter
  | europeanNumber
  | europeanSeparator
  | commonSeparator
  | europeanTerminator
  | arabicNumber
  | otherNeutral
  | boundaryNeutral
  | mark
  /-- Separators and controls, which occur in no label. -/
  | other
deriving DecidableEq, Repr, Inhabited

namespace Direction

/-- The class that a letter stands for in the table. -/
def ofLetter : Char → Direction
  | 'l' => leftToRight
  | 'r' => rightToLeft
  | 'a' => arabicLetter
  | 'e' => europeanNumber
  | 's' => europeanSeparator
  | 'c' => commonSeparator
  | 't' => europeanTerminator
  | 'n' => arabicNumber
  | 'o' => otherNeutral
  | 'b' => boundaryNeutral
  | 'm' => mark
  | _ => other

/-- Runs of the bidirectional classes. -/
@[irreducible]
def runs : Runs Direction := .ofLetters ofLetter
  "b9 z5 be z5 o2 t3 o5 s1 c1 s1 c2 ea c1 o6 l1a o6 l1a o4 b6 z1 b1a c1 o1 t4 o4 l1 o2 b1 o2
  t2 e2 o1 l1 o3 e1 l1 o5 l17 o1 l1f o1 l1c1 o2 l7 oe l2 oe l5 o9 l1 o11 m70 l4 o2 l8 o1 l5
  o2 l1 o1 l6e o1 l8c m7 l100 o1 l2 o2 t1 l1 m2d r1 m1 r1 m2 r1 m2 r1 m1 l8 r1b l4 r6 lb n6
  o2 a1 t2 a1 c1 a1 o2 mb a30 m15 na t1 n2 a3 m1 a65 m7 n1 o1 m6 a2 m2 o1 m4 a2 ea a14 l1
  a2 m1 a1e m1b l2 a59 mb a1 le r2b m9 r2 o4 r1 l2 m1 r18 m4 r1 m9 r1 m3 r1 m5 l2 rf l1 r19
  m3 l2 r1 l1 ab l5 a1f l1 n2 l5 m9 a2a m18 n1 m20 l37 m1 l1 m1 l4 m8 l4 m1 l3 m7 la m2 l1d
  m1 l3a m1 l4 m4 l8 m1 l14 m2 le t2 l7 t1 l2 m1 l2 m2 l39 m1 l4 m2 l4 m2 l2 m3 l3 m1 l1e
  m2 l3 m1 lb m2 l39 m1 l4 m5 l1 m2 l4 m1 l14 m2 ld t1 l8 m6 l1 m1 l3a m1 l2 m1 l1 m4 l8 m1
  l7 m2 lb m2 l1e m1 l3d m1 lc m1 l25 o6 t1 o1 l5 m1 l3 m1 l37 m1 l1 m3 l5 m3 l1 m4 l7 m2
  lb m2 l14 o7 l2 m1 l3a m1 lf m2 l14 m2 l1c m2 l39 m2 l4 m4 l8 m1 l14 m2 l1d m1 l48 m1 l7
  m3 l1 m1 l5a m1 l2 m7 l4 t1 l7 m8 l62 m1 l2 m9 lb m7 l49 m2 l1b m1 l1 m1 l1 m1 o4 l33 me
  l1 m5 l1 m2 l5 mb l1 m24 l9 m1 l66 m4 l1 m6 l1 m2 l2 m2 l19 m2 l4 m3 l10 m4 ld m1 l2 m2
  l6 m1 lf m1 l2bf m3 l30 oa l66 o1 l27f z1 l1a o2 l75 m3 l1d m2 l1e m2 l1e m2 l40 m2 l1 m7
  l8 m1 l2 mb l7 t1 l1 m1 l12 oa l6 ob m3 b1 m1 l75 m2 l22 m1 l76 m3 l4 m2 l9 m1 l6 m3 l4
  o1 l3 o2 l98 o22 l17 m2 l2 m1 l3a m1 l1 m7 l1 m1 l1 m1 l2 m8 l6 ma l2 m1 l30 m1f l31 m4
  l30 m1 l1 m5 l1 m1 l5 m1 l28 m9 lc m2 l20 m4 l2 m2 l1 m3 l38 m1 l1 m2 l3 m1 l1 m3 l3a m8
  l2 m2 l98 m3 l1 md l1 m7 l4 m1 l6 m1 l3 m2 lc6 m40 l1bd o1 l1 o3 lb o3 ld o3 ld o3 ld o2
  l1 zb b3 l1 r1 o18 z7 c1 t5 of c1 o1a z1 b5 l1 z4 b6 e1 l3 e6 s2 o3 l1 ea s2 o3 l11 t21
  lf m21 lf o2 l1 o4 l1 o2 la o1 l1 o3 l5 o6 l1 o1 l1 o1 l1 o1 l4 t1 lb o2 l4 o5 l5 o4 l2
  o10 l29 o3 l4 o82 s1 t1 o122 l45 o1a l1 o91 l19 ob l15 o28 e14 l4e o1c2 l1 o153 l100 o274
  l2 o20 l1 o69 le5 o6 l4 m3 l7 o7 l7f m1 l60 m20 o5e l22 o1a l1 o59 lc od6 l1a oc l4 z1 o4
  l3 o19 l9 m4 l2 o1 l5 o2 l5 o3 l59 m2 o2 l3 o1 l5a o1 lc4 o24 l39 o2 l31 o10 l1c o3 l32
  of lc o4 la7 o4 l63 o2 l1f o1 l19c0 o40 l5690 o37 l146 o3 l5f m4 o1 ma o2 l1e m2 l50 m2
  le o22 l66 o1 l79 m1 l3 m1 l4 m1 l19 m2 l1 o4 m1 lb t2 l3a o4 l4c m2 l1a m12 ld m1 l26 m8
  l19 mb l2e m3 l30 m1 l2 m4 l2 m2 l27 m1 l43 m6 l2 m2 l2 m2 lc m1 l8 m1 l2f m1 l33 m1 l1
  m3 l2 m2 l5 m2 l1 m1 l2a m2 l8 m1 l73 o2 l79 m1 l2 m1 l4 m1 l4f2f r1 m1 ra s1 rd l1 r5 l1
  r1 l1 r2 l1 r2 l1 ra a73 l10 a16b o12 a40 l2 a36 l7 o1 l20 ad o3 m10 oa l6 m10 o20 c1 o1
  c1 l1 o1 c1 o9 t1 o2 s2 o3 l1 o1 t2 o1 l4 a5 l1 a87 l2 b1 l1 o2 t3 o5 s1 c1 s1 c2 ea c1
  o6 l1a o6 l1a ob l7a t2 o3 t2 l1 o7 la o5 l103 o1 l3e o4d l3 od l3 o1 l5c m1 le2 m1 e1b
  l7a m5 l485 r6 l2 r1 l1 r2c l1 r2 l3 r1 l2 r17 l1 r48 l8 r9 l30 r13 l1 r2 l5 r21 l3 o1
  r1a l5 r1 l40 r38 l4 r14 l2 r2f m3 l1 m2 l5 m4 r4 l1 r3 l1 r1d l2 m3 l4 m1 r9 l7 r9 l7
  r40 l20 r25 m2 l4 rc l9 r36 l3 o7 r16 l2 r1b l5 r1a l7 r4 lc r7 l50 r49 l37 r33 ld r33 l7
  r6 a24 m4 l8 na l6 r26 l3 m5 r18 l8 r2 ld0 n1f l1 r2a l1 m2 r1 l2 r2 l10 a3 l37 m4 r28 l8
  a16 mb a9 l16 r12 m4 r4 l26 r1c l14 r17 la m1 l36 mf lb o14 la m1 l2 m2 la m3 l31 m4 l2
  m2 l7 m1 l3d m3 l24 m5 l1 m8 l3e m1 lc m2 l34 m9 la m4 l2 m1 l5f m3 l2 m1 l1 m2 l6 m1 l2
  m1 l9d m1 l3 m8 l15 m2 l39 m2 l3 m1 l25 m7 l3 m5 l46 m6 ld m1 l1 m1 l1 m1 le m2 l55 m8 l2
  m3 l1 m1 l17 m1 l54 m6 l1 m1 l4 m2 l1 m2 lee m4 l6 m2 l1 m2 l1b m2 l55 m8 l2 m1 l1 m2 l1f
  od l3e m1 l1 m1 l2 m6 l1 m1 l65 m3 l2 m4 l1 m5 l103 m9 l1 m2 l100 m2 l1 m1 l4 m1 l90 m4
  l2 m2 l4 m1 l20 m6 l2 m2 l28 m6 l2 m4 l8 m1 l9 m6 l2 m3 l2e md l1 m2 l196 m7 l1 m6 l54
  m16 l2 m7 l1 m2 l1 m2 l7a m6 l3 m1 l1 m2 l1 m7 l1 m1 l48 m2 l3 m1 l1 m1 l15b m2 lb m2 l34
  m5 l5 m1 l1 m1 l17 m1 l7a o8 t4 o11 l144e m1 l6 mf l2cc8 mc l3 m3 l9c0 m5 l3b m7 l418 m1
  l3f m4 l4f o1 l1 m1 l4cb8 m2 l1 b4 l125c m2e l2 m17 l220 m3 l9 b8 m8 l2 m7 l1e m4 l3b o2
  l15 o42 m3 o1 lba o57 l384 o1 l39 o1 l39 o1 l39 o1 l39 o1 la e32 l200 m37 l4 m32 l8 m1 le
  m1 l16 m5 l1 mf l550 m7 l1 m11 l2 m7 l1 m2 l1 m5 l64 m1 la0 m7 l177 m1 l3d m4 lf t1 l1ec
  m4 lfe m2 l210 rc5 l2 r9 m7 l29 r44 m7 r1 l4 ra l4 r2 l311 a44 l4c a3d lc2 a4 l1 a1b l1
  a2 l1 a1 l2 a1 l1 aa l1 a4 l1 a1 l1 a1 l6 a1 l4 a1 l1 a1 l1 a1 l1 a3 l1 a2 l1 a1 l2 a1 l1
  a1 l1 a1 l1 a1 l1 a1 l1 a2 l1 a1 l2 a4 l1 a7 l1 a4 l1 a4 l1 a1 l1 aa l1 a11 l5 a3 l1 a5
  l1 a11 l34 o2 l10e o2c l4 o64 lc of l2 of l1 of l1 o25 la eb o5 l1f o1 l3a o6 l3d o1 lb2
  o6 l9a o3d8 l4 o11 l3 od l3 o77 l4 o5f l6 oc l4 o1 lf oc l4 o38 l8 oa l6 o28 l8 o1e l2 o2
  l4e o154 lc oe l2 od l3 o9 l7 o2e l1 o7 l8 oe l4 o9 l7 o9 l7 o93 l1 o37 l25 ea lc0407 b1
  l1e b60 l80 mf0 l2fe10"

/-- The bidirectional class of a character. -/
def of (c : Char) : Direction := (runs.value? c.toNat).getD .other

/-- Does a character of this class make its domain name bidirectional? -/
def isRightToLeft (d : Direction) : Bool :=
  d = rightToLeft || d = arabicLetter || d = arabicNumber

/-- May a label that runs from right to left contain the class? -/
def inRightToLeft (d : Direction) : Bool :=
  d ≠ leftToRight && d ≠ other

/-- May a label that runs from left to right contain the class? -/
def inLeftToRight (d : Direction) : Bool :=
  d ≠ rightToLeft && d ≠ arabicLetter && d ≠ arabicNumber && d ≠ other

end Direction

/-- The last class of a label, marks apart. -/
def lastDirection? (ds : List Direction) : Option Direction :=
  (ds.reverse.dropWhile (· = .mark)).head?

/-- The rule for the labels of bidirectional names. The first character decides which way a label
runs; the others have to suit it, and the last one has to be a letter or a number. European and
Arabic numbers do not mix in a label that runs from right to left. -/
def suitsDirections (label : List Char) : Bool :=
  let ds := label.map Direction.of
  match ds with
  | [] => true
  | first :: _ =>
    if first = .rightToLeft ∨ first = .arabicLetter then
      ds.all Direction.inRightToLeft
        && (lastDirection? ds).any
          (fun d => d.isRightToLeft || d = .europeanNumber)
        && !(ds.contains .europeanNumber && ds.contains .arabicNumber)
    else if first = .leftToRight then
      ds.all Direction.inLeftToRight
        && (lastDirection? ds).any (fun d => d = .leftToRight || d = .europeanNumber)
    else false

end RemoteIndex.Url.Domain
