import RemoteIndex.Text.Runs
import RemoteIndex.Url.Domain.Composition

/-!
# Joiners

Two invisible characters join or separate their neighbours. In a domain name they may stand only
where they show: behind a virama, and the one that separates also between two letters that would
join without it.
-/

namespace RemoteIndex.Url.Domain

open RemoteIndex.Text

/-- How a character joins its neighbours. -/
inductive Joining where
  | both
  | left
  | right
  | transparent
  | none
deriving DecidableEq, Repr, Inhabited

namespace Joining

/-- The joining type that a letter stands for in the table. -/
def ofLetter : Char → Joining
  | 'd' => both
  | 'l' => left
  | 'r' => right
  | 't' => transparent
  | _ => none

/-- Runs of the joining types. -/
@[irreducible]
def runs : Runs Joining := .ofLetters ofLetter
  "uad t1 u252 t70 u113 t7 u107 t2d u1 t1 u1 t2 u1 t2 u1 t1 u48 tb u1 t1 u3 d1 u1 r4 d1 r1
  d1 r1 d5 r4 dd u1 d7 r1 d2 t15 ue d2 t1 r3 u1 r3 d10 r12 d26 r1 d2 r9 d1 r1 d1 r1 d2 r2
  u1 r1 t7 u2 t6 u2 t2 u1 t4 r2 ua d3 u2 d1 uf t1 r1 t1 d3 r5 d4 r1 d9 r1 d1 r1 d1 r1 d2 r1
  t1b u2 r1 db r3 df r2 d4 r1 d1 r2 d3 r2 d6 u26 tb u19 d21 t9 u9 t1 u18 t4 u1 t9 u1 t3 u1
  t5 u12 r1 d5 r2 d1 r1 da r1 d1 r3 t3 u4 d1 u1 d4 u1 r1 d1 r2 u5 r13 u3 d1 u2 d5 r1 u8 t9
  da r3 u1 r1 d2 r2 d6 r1 df u1 t18 u1 t20 u37 t1 u1 t1 u4 t8 u4 t1 u3 t7 ua t2 u1d t1 u3a
  t1 u4 t4 u8 t1 u14 t2 u1a t1 u2 t2 u39 t1 u4 t2 u4 t2 u2 t3 u3 t1 u1e t2 u3 t1 ub t2 u39
  t1 u4 t5 u1 t2 u4 t1 u14 t2 u16 t6 u1 t1 u3a t1 u2 t1 u1 t4 u8 t1 u7 t2 ub t2 u1e t1 u3d
  t1 uc t1 u32 t1 u3 t1 u37 t1 u1 t3 u5 t3 u1 t4 u7 t2 ub t2 u1d t1 u3a t1 u2 t1 u6 t1 u5
  t2 u14 t2 u1c t2 u39 t2 u4 t4 u8 t1 u14 t2 u1d t1 u48 t1 u7 t3 u1 t1 u5a t1 u2 t7 uc t8
  u62 t1 u2 t9 ub t7 u49 t2 u1b t1 u1 t1 u1 t1 u37 te u1 t5 u1 t2 u5 tb u1 t24 u9 t1 u66 t4
  u1 t6 u1 t2 u2 t2 u19 t2 u4 t3 u10 t4 ud t1 u2 t2 u6 t1 uf t1 u2bf t3 u3b2 t3 u1d t2 u1e
  t2 u1e t2 u40 t2 u1 t7 u8 t1 u2 tb u9 t1 u29 d1 u3 t3 u1 t1 u10 d59 uc t2 d22 t1 d1 u75
  t3 u4 t2 u9 t1 u6 t3 udb t2 u2 t1 u3a t1 u1 t7 u1 t1 u1 t1 u2 t8 u6 ta u2 t1 u30 t1f u31
  t4 u30 t1 u1 t5 u1 t1 u5 t1 u28 t9 uc t2 u20 t4 u2 t2 u1 t3 u38 t1 u1 t2 u3 t1 u1 t3 u3a
  t8 u2 t2 u98 t3 u1 td u1 t7 u4 t1 u6 t1 u3 t2 uc6 t40 u20b t1 u2 t2 u1a t5 u31 t5 u5 t6
  u60 t21 ubfe t3 u8d t1 u60 t20 u22a t4 u6b t2 u75d4 t4 u1 ta u20 t2 u50 t2 u110 t1 u3 t1
  u4 t1 u19 t2 u5 t1 u13 d32 l1 u51 t2 u1a t12 ud t1 u26 t8 u19 tb u2e t3 u30 t1 u2 t4 u2
  t2 u27 t1 u43 t6 u2 t2 u2 t2 uc t1 u8 t1 u2f t1 u33 t1 u1 t3 u2 t2 u5 t2 u1 t1 u2a t2 u8
  t1 uee t1 u2 t1 u4 t1 u4f30 t1 u2e1 t10 u10 t10 ucf t1 uf9 t3 u201 t1 ue2 t1 u95 t5 u686
  t3 u1 t2 u5 t4 u28 t3 u4 t1 u80 d5 r1 u1 r1 u1 r2 u2 l1 r5 d4 l1 d5 r1 d3 r1 u2 r1 t2 u4
  d4 r1 u90 d1 r1 d1 r3 d3 r1 d2 r1 d1 r2 d1 r1 u17 r4 d2 u151 l1 d21 r1 d1 t4 u41 t5 u13d
  t2 u4f t4 u30 d3 r1 d11 u1 tb d3 r1 u1b d4 r2 dc t4 u2a d1 u1 d2 r3 u1 d1 r2 d2 r1 d2 u1
  d1 r2 d1 u4 r1 d1 l1 u35 t1 u36 tf u29 t1 u2 t2 ua t3 u31 t4 u2 t2 u7 t1 u3d t3 u24 t5 u1
  t8 u3e t1 uc t2 u34 t9 ua t4 u2 t1 u5f t3 u2 t1 u1 t2 u6 t1 u2 t1 u9d t1 u3 t8 u15 t2 u39
  t2 u3 t1 u25 t7 u3 t5 u46 t6 ud t1 u1 t1 u1 t1 ue t2 u55 t8 u2 t3 u1 t1 u17 t1 u54 t6 u1
  t1 u4 t2 u1 t2 uee t4 u6 t2 u1 t2 u1b t2 u55 t8 u2 t1 u1 t2 u6a t1 u1 t1 u2 t6 u1 t1 u65
  t3 u2 t4 u1 t5 u103 t9 u1 t2 u100 t2 u1 t1 u4 t1 u90 t4 u2 t2 u4 t1 u20 ta u28 t6 u2 t4
  u8 t1 u9 t6 u2 t3 u2e td u1 t2 u196 t7 u1 t6 u1 t1 u52 t16 u2 t7 u1 t2 u1 t2 u7a t6 u3 t1
  u1 t2 u1 t7 u1 t1 u48 t2 u3 t1 u1 t1 u15b t2 ub t2 u34 t5 u5 t1 u1 t1 u17 t1 u14d5 t11 u6
  tf u2cc8 tc u3 t3 u9c0 t5 u3b t7 u418 t1 u3f t4 u51 t1 u4cb8 t2 u1 t4 u125c t2e u2 t17
  u220 t3 u9 t10 u2 t7 u1e t4 u94 t3 u7bb t37 u4 t32 u8 t1 ue t1 u16 t5 u1 tf u550 t7 u1
  t11 u2 t7 u1 t2 u1 t5 u64 t1 ua0 t7 u177 t1 u3d t4 u1fc t4 ufe t2 u2e0 t7 u29 d44 t8
  uc16b5 t1 u1e t60 u80 tf0 u2fe10"

/-- The joining type of a character. -/
def of (c : Char) : Joining := (runs.value? c.toNat).getD .none

end Joining

/-- The separating joiner. -/
def nonJoiner : Char := '\u200c'

/-- The joining joiner. -/
def joiner : Char := '\u200d'

/-- Does the text, from its head on, join to what stands before it? Transparent characters are
passed over. -/
def joinsBefore : List Char → Bool
  | [] => false
  | c :: cs =>
    match Joining.of c with
    | .transparent => joinsBefore cs
    | .right => true
    | .both => true
    | _ => false

/-- Does the text, given latest character first, join to what follows it? -/
def joinsBehind : List Char → Bool
  | [] => false
  | c :: cs =>
    match Joining.of c with
    | .transparent => joinsBehind cs
    | .left => true
    | .both => true
    | _ => false

/-- May a character stand between `before`, latest first, and `behind`? -/
def joinerAllowed (before : List Char) (c : Char) (behind : List Char) : Bool :=
  if c = nonJoiner then
    before.head?.any isVirama || (joinsBehind before && joinsBefore behind)
  else if c = joiner then before.head?.any isVirama
  else true

/-- Are all joiners of the text allowed where they stand? `before` is what stands before it, latest
character first. -/
def joinersAllowed (before : List Char) : List Char → Bool
  | [] => true
  | c :: cs => joinerAllowed before c cs && joinersAllowed (c :: before) cs

end RemoteIndex.Url.Domain
