import RemoteIndex.Script.Site
import RemoteIndex.Url.Authority

/-!
# Remote and local specifiers

A specifier is remote when it is an absolute `http` or `https` URL with a host. Nothing is fetched;
the text alone decides.
-/

namespace RemoteIndex

namespace Specifier

/-- What stands before and behind the first `://`. -/
def splitScheme? : List Char → Option (List Char × List Char)
  | [] => none
  | ':' :: '/' :: '/' :: rest => some ([], rest)
  | c :: cs => (splitScheme? cs).map fun (scheme, rest) => (c :: scheme, rest)

/-- Is the text `http` or `https`, in letters of any size? -/
def isWebScheme (scheme : List Char) : Bool :=
  let small := scheme.map Char.toLower
  small = ['h', 't', 't', 'p'] || small = ['h', 't', 't', 'p', 's']

theorem splitScheme?_eq_some {cs scheme rest : List Char}
    (h : splitScheme? cs = some (scheme, rest)) : cs = scheme ++ ':' :: '/' :: '/' :: rest := by
  fun_induction splitScheme? cs generalizing scheme with
  | case1 => exact absurd h (by simp)
  | case2 behind =>
    obtain ⟨rfl, rfl⟩ : [] = scheme ∧ behind = rest := by simpa using h
    rfl
  | case3 c cs _ ih =>
    obtain ⟨⟨before, behind⟩, split, same⟩ := Option.map_eq_some_iff.mp h
    obtain ⟨rfl, rfl⟩ : c :: before = scheme ∧ behind = rest := by simpa using same
    rw [ih split]
    rfl

end Specifier

/-- Is the specifier an absolute `http` or `https` URL? -/
def isRemote (specifier : String) : Bool :=
  match Specifier.splitScheme? specifier.toList with
  | none => false
  | some (scheme, rest) =>
    Specifier.isWebScheme scheme && (Url.Authority.parse? ('/' :: '/' :: rest)).isSome

theorem isRemote_eq_true {specifier : String} :
    isRemote specifier = true ↔ ∃ scheme rest,
      Specifier.splitScheme? specifier.toList = some (scheme, rest) ∧
      Specifier.isWebScheme scheme = true ∧
      (Url.Authority.parse? ('/' :: '/' :: rest)).isSome = true := by
  rw [isRemote]
  cases Specifier.splitScheme? specifier.toList with
  | none => simp
  | some parts =>
    obtain ⟨scheme, rest⟩ := parts
    rw [Bool.and_eq_true]
    constructor
    · rintro ⟨web, parsed⟩
      exact ⟨scheme, rest, rfl, web, parsed⟩
    · rintro ⟨_, _, ⟨⟩, web, parsed⟩
      exact ⟨web, parsed⟩

/-- An address begins with the letter that both schemes begin with. -/
theorem exists_toList_of_isRemote {specifier : String} (remote : isRemote specifier = true) :
    ∃ c cs, specifier.toList = c :: cs ∧ c.toLower = 'h' := by
  obtain ⟨scheme, rest, split, web, -⟩ := isRemote_eq_true.mp remote
  have whole := Specifier.splitScheme?_eq_some split
  cases scheme with
  | nil => exact absurd web (by decide)
  | cons c scheme =>
    refine ⟨c, _, whole, ?_⟩
    simp only [Specifier.isWebScheme, List.map_cons, Bool.or_eq_true, decide_eq_true_eq] at web
    rcases web with plain | secure
    · exact (List.cons.inj plain).1
    · exact (List.cons.inj secure).1

/-- A specifier site, classified by its text alone: remote, or internal to the project as far as the
text tells. -/
inductive RawSpecifier where
  | internal (site : Site)
  | remote (site : Site)
deriving DecidableEq, Repr

namespace RawSpecifier

/-- A site is remote when its text is. -/
def classify (site : Site) : RawSpecifier :=
  if isRemote site.text then .remote site else .internal site

/-- The site that was classified. -/
def site : RawSpecifier → Site
  | .internal site => site
  | .remote site => site

@[simp]
theorem site_classify (site : Site) : (classify site).site = site := by
  unfold classify
  split <;> rfl

theorem map_classify_inj {sites sites' : List Site} :
    sites.map classify = sites'.map classify ↔ sites = sites' := by
  constructor
  · intro same
    have back := congrArg (List.map site) same
    simpa only [List.map_map, Function.comp_def, site_classify, List.map_id'] using back
  · exact congrArg _

end RawSpecifier

end RemoteIndex
