import RemoteIndex.DependencyIndex
import RemoteIndex.Proofs.Precedence

/-!
# Remote directories

A slash at the end of a remote address closes its authority, so nothing that is written behind it
can take the host away again. What an import map puts below such an address is recorded, whatever
it is.
-/

namespace RemoteIndex

namespace Specifier

variable {cs scheme rest : List Char}

/-- The first `://` stays the first one, whatever is written behind. -/
theorem splitScheme?_append (h : splitScheme? cs = some (scheme, rest)) (ds : List Char) :
    splitScheme? (cs ++ ds) = some (scheme, rest ++ ds) := by
  fun_induction splitScheme? cs generalizing scheme with
  | case1 => exact absurd h (by simp)
  | case2 behind =>
    obtain ⟨rfl, rfl⟩ : [] = scheme ∧ behind = rest := by simpa using h
    rfl
  | case3 c cs other ih =>
    obtain ⟨⟨before, behind⟩, split, same⟩ := Option.map_eq_some_iff.mp h
    obtain ⟨rfl, rfl⟩ : c :: before = scheme ∧ behind = rest := by simpa using same
    rw [List.cons_append, splitScheme?]
    · rw [ih split]
      rfl
    · -- A shorter beginning would have to end within what is split already.
      intro more colon slashes
      have whole := splitScheme?_eq_some split
      rw [whole] at slashes
      cases before with
      | nil => exact absurd slashes (by simp)
      | cons a before =>
        cases before with
        | nil => exact absurd slashes (by simp)
        | cons b before =>
          simp only [List.cons_append, List.cons.injEq] at slashes
          obtain ⟨rfl, rfl, -⟩ := slashes
          exact other _ colon whole

end Specifier

namespace Url.Authority

/-- What a slash is followed by does not count at the end of a text that ends there. -/
theorem trimEnd_append_slash (stem ds : List Char) :
    trimEnd (stem ++ '/' :: ds) = stem ++ '/' :: trimEnd ds := by
  have stays : (stem ++ ['/']).reverse.dropWhile isTrailing = (stem ++ ['/']).reverse := by
    rw [List.reverse_append, List.reverse_singleton]
    exact List.dropWhile_cons_of_neg (by decide)
  have cut : (stem ++ '/' :: ds).reverse = ds.reverse ++ (stem ++ ['/']).reverse := by simp
  rw [trimEnd, trimEnd, cut, List.dropWhile_append]
  split
  · next nothing =>
    rw [stays, List.reverse_reverse, List.isEmpty_iff.mp nothing]
    rfl
  · simp

/-- The text without slashes at its beginning and without what does not count anywhere. -/
def opening (stem : List Char) : List Char := (stem.filter (!isIgnored ·)).dropWhile isSlash

/-- Once something other than slashes stands before it, a slash ends the authority. -/
theorem textOf_append_slash {stem : List Char} (given : opening stem ≠ []) (ds : List Char) :
    textOf (stem ++ '/' :: ds) = (opening stem).takeWhile (!isEnd ·) := by
  have kept : (stem ++ '/' :: trimEnd ds).filter (!isIgnored ·) =
      stem.filter (!isIgnored ·) ++ '/' :: (trimEnd ds).filter (!isIgnored ·) := by
    rw [List.filter_append, List.filter_cons_of_pos (by decide)]
  rw [textOf, trimEnd_append_slash, kept, List.dropWhile_append, ← opening,
    if_neg (mt List.isEmpty_iff.mp given), List.takeWhile_append]
  split
  · next whole =>
    rw [List.takeWhile_cons_of_neg (by decide), List.append_nil]
    exact ((List.takeWhile_sublist _).eq_of_length whole).symm
  · rfl

/-- Slashes alone leave the authority to what is written behind them. -/
theorem textOf_slash {stem : List Char} (none : opening stem = []) : textOf (stem ++ ['/']) = [] := by
  have kept : (stem ++ ['/']).filter (!isIgnored ·) = stem.filter (!isIgnored ·) ++ ['/'] := by
    rw [List.filter_append]
    rfl
  have trimmed : trimEnd (stem ++ ['/']) = stem ++ ['/'] := trimEnd_append_slash stem []
  rw [textOf, trimmed, kept, List.dropWhile_append, ← opening,
    if_pos (List.isEmpty_iff.mpr none)]
  rfl

theorem parse?_of_textOf_eq_nil {cs : List Char} (h : textOf cs = []) : parse? cs = none := by
  rw [parse?, h]
  rfl

/-- An authority that a slash closes stays what it is, whatever is written behind the slash. -/
theorem parse?_append_slash {stem : List Char} (h : (parse? (stem ++ ['/'])).isSome)
    (ds : List Char) : parse? (stem ++ '/' :: ds) = parse? (stem ++ ['/']) := by
  by_cases given : opening stem = []
  · rw [parse?_of_textOf_eq_nil (textOf_slash given)] at h
    exact absurd h (by simp)
  · rw [parse?, parse?, textOf_append_slash given, textOf_append_slash given]

end Url.Authority

/-- What is written behind a remote address that ends in a slash leaves it remote. -/
theorem isRemote_append_slash {stem : String} (remote : isRemote (stem ++ "/") = true)
    (rest : String) : isRemote (stem ++ "/" ++ rest) = true := by
  obtain ⟨scheme, behind, split, web, closed⟩ := isRemote_eq_true.mp remote
  obtain ⟨front, ends⟩ : ∃ front, '/' :: '/' :: behind = front ++ ['/'] := by
    have last : (stem ++ "/").toList.getLast? = some '/' := by simp
    rw [Specifier.splitScheme?_eq_some split, List.getLast?_append_of_ne_nil _ (by simp),
      List.getLast?_cons_cons] at last
    exact List.getLast?_eq_some_iff.mp last
  have longer : '/' :: '/' :: (behind ++ rest.toList) = front ++ '/' :: rest.toList := by
    simpa using congrArg (· ++ rest.toList) ends
  refine isRemote_eq_true.mpr ⟨scheme, behind ++ rest.toList, ?_, web, ?_⟩
  · rw [String.toList_append]
    exact Specifier.splitScheme?_append split rest.toList
  · rw [ends] at closed
    rw [longer, Url.Authority.parse?_append_slash closed]
    exact closed

namespace ImportMap

variable {target text : String}

/-- A remote address is no relative path. -/
theorem isRelative_of_isRemote (remote : isRemote text = true) : isRelative text = false := by
  obtain ⟨c, cs, whole, letter⟩ := exists_toList_of_isRemote remote
  rw [Bool.eq_false_iff]
  intro relative
  have dot : '.' = c := by
    rw [isRelative, whole, Bool.or_eq_true] at relative
    rcases relative with here | up
    · exact (List.cons_prefix_cons.mp (List.isPrefixOf_iff_prefix.mp here)).1
    · exact (List.cons_prefix_cons.mp (List.isPrefixOf_iff_prefix.mp up)).1
  rw [← dot] at letter
  exact absurd letter (by decide)

theorem anchor_of_isRemote (m : ImportMap) (remote : isRemote text = true) :
    m.anchor text = text := by
  rw [anchor]
  split
  · rw [isRelative_of_isRemote remote]
    rfl
  · rfl

/-- An alias for a remote directory loses nothing that is below it: whatever is behind the alias, it
is below the directory that the specifier then leads to, and that is recorded. -/
theorem record_below_directory (slash : ∃ stem, target = stem ++ "/")
    (remote : isRemote target = true) :
    (∀ rest, isRemote (target ++ rest) = true) ∧
    ∀ (m : ImportMap) (name rest : String) (before behind : List (String × String)),
      m.entries = before ++ (name, target) :: behind → (∀ e ∈ behind, e.1 ≠ name) →
      (∃ stem, name = stem ++ "/") → name ++ rest ∉ m.entries.map Prod.fst →
      (∀ e ∈ m.entries, ∀ more, Opens e.1 (name ++ rest) more → e.1.length ≤ name.length) →
      ∀ site : Site, site.text = name ++ rest → isRemote site.text = false →
        (RawSpecifier.classify site).resolve m = target ++ rest ∧
        ∀ (index : DependencyIndex) (edge : Edge),
          index.record ((RawSpecifier.classify site).resolve m) edge =
            (index.append (target ++ rest) edge, true) := by
  have below : ∀ rest, isRemote (target ++ rest) = true := by
    obtain ⟨stem, rfl⟩ := slash
    exact isRemote_append_slash remote
  refine ⟨below, ?_⟩
  intro m name rest before behind split last opened absent most site text internal
  rw [split] at absent most
  have resolved : (RawSpecifier.classify site).resolve m = target ++ rest := by
    rw [RawSpecifier.resolve_classify, if_neg (Bool.eq_false_iff.mp internal), text, resolve_eq,
      split, substitute?_of_split absent opened most last, Option.map_some, Option.getD_some,
      anchor_of_isRemote m (below rest)]
  refine ⟨resolved, ?_⟩
  intro index edge
  rw [resolved, DependencyIndex.record_of_isRemote (below rest)]

/-- A map in which the alias `lib/` is for a remote directory in the end. -/
def libraryMap : ImportMap where
  entries := [("lib/", "./old/"), ("lib", "./lib.ts"), ("lib/", "HTTP:///\\u@[::1]:80/?"),
    ("lib/", "HTTP:///\\u@[::1]:80/")]
  base := some (.ofString "/p")

/-- A literal that goes on behind the alias with what would end or begin an authority. -/
def oddSite : Site := ⟨"lib/ @[:?#\\../é", ⟨⟨0, 7⟩, ⟨0, 25⟩⟩, .importFrom⟩

theorem record_below_directory_library :
    isRemote "HTTP:///\\u@[::1]:80/" = true ∧ isRemote oddSite.text = false ∧
    (RawSpecifier.classify oddSite).resolve libraryMap = "HTTP:///\\u@[::1]:80/ @[:?#\\../é" ∧
    ∀ (index : DependencyIndex) (edge : Edge),
      index.record ((RawSpecifier.classify oddSite).resolve libraryMap) edge =
        (index.append "HTTP:///\\u@[::1]:80/ @[:?#\\../é" edge, true) := by
  have remote : isRemote "HTTP:///\\u@[::1]:80/" = true := by decide +kernel
  have internal : isRemote oddSite.text = false := by decide +kernel
  have short : ∀ e ∈ libraryMap.entries, e.1.length ≤ "lib/".length := by decide
  obtain ⟨-, recorded⟩ := record_below_directory ⟨"HTTP:///\\u@[::1]:80", rfl⟩ remote
  exact ⟨remote, internal, recorded libraryMap "lib/" " @[:?#\\../é" (libraryMap.entries.take 3) []
    rfl (by simp) ⟨"lib", rfl⟩ (by decide) (fun e member _ _ => short e member) oddSite rfl internal⟩

end ImportMap

end RemoteIndex
