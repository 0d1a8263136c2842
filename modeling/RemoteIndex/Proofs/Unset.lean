import Mathlib.Logic.Relation
import RemoteIndex.Proofs.Unlinked

/-!
# Settings that are none

A document of settings is read line by line, and one line that cannot be read is enough to reject
the whole: what was read before it does not count. With a file that is rejected a project has the
settings that it has without one.
-/

namespace RemoteIndex

namespace FileTree

variable {t : FileTree} {cwd : Place} {p : Path}

theorem exists?_eq_true : t.exists? cwd p = true ↔ ∃ place, t.locate cwd p = .ok place := by
  rw [exists?]
  cases t.locate cwd p with
  | error cause => simp [Except.isOk, Except.toBool]
  | ok place => simp [Except.isOk, Except.toBool]

theorem decode?_of_readText {place : Place} {bytes : List UInt8} {accessible : Bool} {text : String}
    (located : t.locate cwd p = .ok place) (found : t.node? place = some (.file bytes accessible))
    (known : t.readText cwd p = .ok text) : Text.Utf8.decode? bytes = some text := by
  rw [readText, read, stat, located] at known
  simp only [bind, Except.bind, found] at known
  cases accessible with
  | false => exact absurd known (by simp)
  | true =>
    cases decoded : Text.Utf8.decode? bytes with
    | none => exact absurd known (by simp [decoded])
    | some other => simpa [decoded] using known

end FileTree

namespace Settings

namespace Document

variable {found : Entries} {cs : List Char} {key : String}

/-- Reads one line: a blank one, or one that gives an entry. -/
def line? (found : Entries) (cs : List Char) : Option (Entries × List Char) :=
  match cs.dropWhile isBlank with
  | [] => none
  | c :: cs =>
    if c = '#' || atLineEnd (c :: cs) then (endOfLine? (c :: cs)).map (found, ·)
    else
      match key? (c :: cs) with
      | none => none
      | some (key, rest) =>
        match rest.dropWhile isBlank with
        | '=' :: rest =>
          ( entry? found key (rest.dropWhile isBlank)).bind fun (found, rest) =>
            (endOfLine? rest).map (found, ·)
        | _ => none

/-- Lines at the beginning of a text are read, one after the other. Before and after them it counts
what has been given so far, and the text that is still to be read. -/
def Reads : Entries × List Char → Entries × List Char → Prop :=
  Relation.ReflTransGen fun before after => line? before.1 before.2 = some after

/-- A document is read line by line. -/
theorem lines?_succ (n : Nat) (found : Entries) (cs : List Char) :
    lines? (n + 1) found cs =
      if cs.dropWhile isBlank = [] then some found
      else (line? found cs).bind fun (found, rest) => lines? n found rest := by
  rw [lines?, line?]
  cases cs.dropWhile isBlank with
  | nil => rfl
  | cons c cs =>
    simp only [reduceCtorEq, if_false]
    split
    · cases endOfLine? (c :: cs) with
      | none => rfl
      | some rest => rfl
    · cases key? (c :: cs) with
      | none => rfl
      | some named =>
        obtain ⟨key, rest⟩ := named
        cases behind : rest.dropWhile isBlank with
        | nil => simp only [behind, Option.bind_none]
        | cons d assigned =>
          by_cases equals : d = '='
          · subst equals
            cases known : entry? found key (assigned.dropWhile isBlank) with
            | none => simp only [behind, known, Option.bind_none]
            | some entry =>
              cases ended : endOfLine? entry.2 with
              | none => simp only [behind, known, ended, Option.bind_some, Option.map_none,
                  Option.bind_none]
              | some rest => simp only [behind, known, ended, Option.bind_some, Option.map_some]
          · simp [behind, equals]

/-- A line that cannot be read is not made up for by those before it. -/
theorem Reads.lines?_eq_none {before after : Entries × List Char} (h : Reads before after)
    (busy : after.2.dropWhile isBlank ≠ []) (stuck : line? after.1 after.2 = none) (n : Nat) :
    lines? n before.1 before.2 = none := by
  induction h using Relation.ReflTransGen.head_induction_on generalizing n with
  | refl =>
    cases n with
    | zero => rfl
    | succ n => rw [lines?_succ, if_neg busy, stuck, Option.bind_none]
  | head first _ ih =>
    cases n with
    | zero => rfl
    | succ n =>
      rw [lines?_succ]
      split
      · next blank =>
        rw [line?, blank] at first
        exact absurd first (by simp)
      · rw [first]
        exact ih n

/-- No key begins like a comment or like the end of a line. -/
theorem key?_of_idle {c : Char} (idle : (c = '#' || atLineEnd (c :: cs)) = true) :
    key? (c :: cs) = none := by
  have first : c = '#' ∨ c = '\n' ∨ c = '\r' := by
    simp only [atLineEnd, Bool.or_eq_true, decide_eq_true_eq, beq_iff_eq, List.head?_cons,
      Option.some.injEq, List.take_succ_cons, List.cons.injEq] at idle
    tauto
  rcases first with rfl | rfl | rfl
  · rfl
  · rfl
  · rfl

/-- There are no other keys than the two. -/
theorem line?_of_unknown {behind : List Char}
    (named : key? (cs.dropWhile isBlank) = some (key, behind)) (importMap : key ≠ "import_map")
    (exclude : key ≠ "exclude") : line? found cs = none := by
  have refused (value : List Char) : entry? found key value = none := by
    simp [importMap, exclude, entry?]
  rw [line?]
  split
  · rfl
  · next c cs begins =>
    rw [begins] at named
    have busy : ¬(c = '#' || atLineEnd (c :: cs)) = true := fun idle =>
      absurd ((key?_of_idle idle).symm.trans named) (by simp)
    rw [if_neg busy, named]
    simp only [refused, Option.bind_none]
    split
    · rfl
    · rfl

/-- The text of a document without the mark that may stand before it. -/
def unmarked (document : String) : List Char :=
  if document.toList.head? = some '\ufeff' then document.toList.drop 1 else document.toList

end Document

/-- An unknown key makes a document none, whatever stands before it or behind it. -/
theorem ofDocument?_of_unknown {document key : String} {found : Document.Entries}
    {rest behind : List Char}
    (before : Document.Reads (⟨none, none⟩, Document.unmarked document) (found, rest))
    (named : Document.key? (rest.dropWhile Document.isBlank) = some (key, behind))
    (importMap : key ≠ "import_map") (exclude : key ≠ "exclude") :
    ofDocument? document = none := by
  have busy : rest.dropWhile Document.isBlank ≠ [] := by
    intro blank
    rw [blank] at named
    exact absurd named (by simp [Document.key?, Document.shortText?])
  have unread : Document.entries? document = none :=
    before.lines?_eq_none busy (Document.line?_of_unknown named importMap exclude) _
  rw [ofDocument?, unread, Option.map_none]

/-- The bytes are no settings document. -/
def Rejects (bytes : List UInt8) : Prop := (Text.Utf8.decode? bytes).bind ofDocument? = none

/-- The place of the settings file of a project. -/
def fileAt (project : Place) : Place := project ++ [.ofString fileName]

theorem proper_fileName : (Name.ofString fileName).Proper := by decide +kernel

variable {t : FileTree} {cwd : Place} {root : Path} {project : Place} {bytes : List UInt8}
  {accessible : Bool}

/-- A rejected file, if it is read at all, leaves the settings as they are without one. -/
theorem load_of_rejects (located : t.locate cwd root = .ok project)
    (found : t.node? (fileAt project) = some (.file bytes accessible)) (rejects : Rejects bytes) :
    (load t cwd root).1 = default := by
  rw [load]
  split
  · rfl
  · next present =>
    obtain ⟨there, leads⟩ := FileTree.exists?_eq_true.mp (by simpa using present)
    obtain ⟨node, found', ⟨target, rfl⟩ | rfl⟩ := FileTree.entry_of_leadsTo_join proper_fileName
      located (FileTree.leadsTo_of_locate leads)
    · exact absurd (found.symm.trans found') (by simp)
    · cases read : t.readText cwd (root.join (.ofString fileName)) with
      | error cause => rfl
      | ok document =>
        have refused : ofDocument? document = none := by
          rw [Rejects, FileTree.decode?_of_readText leads found read] at rejects
          exact rejects
        simp only [refused]

theorem load_of_absent (located : t.locate cwd root = .ok project)
    (absent : t.node? (fileAt project) = none) : (load t cwd root).1 = default := by
  rw [load, if_pos]
  rw [Bool.not_eq_true', ← Bool.not_eq_true, FileTree.exists?_eq_true]
  rintro ⟨there, leads⟩
  obtain ⟨node, found, -⟩ := FileTree.entry_of_leadsTo_join proper_fileName located
    (FileTree.leadsTo_of_locate leads)
  exact absurd (absent.symm.trans found) (by simp)

/-- Without the file there are no settings. -/
theorem load_prune_of_file (absolute : root.isAbsolute = true)
    (located : t.locate cwd root = .ok project) (file : t.HasFile (fileAt project)) :
    (load (t.prune (fileAt project)) cwd root).1 = default := by
  have other : project ≠ fileAt project := by simp [fileAt]
  have avoids : t.PathAvoids cwd root (fileAt project) :=
    file.avoids (file.not_prefix_origin absolute) (FileTree.leadsTo_of_locate located) other
  exact load_of_absent (avoids.locate.trans located) (FileTree.node?_prune_self file.inner)

end Settings

end RemoteIndex
