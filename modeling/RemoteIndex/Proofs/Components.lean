import RemoteIndex.Proofs.Cleaning

/-!
# Names behind a path

A proper name behind a path is one more component of it, and nothing else. So the names that a path
was extended by can be read off its components again.
-/

namespace RemoteIndex

theorem Name.Proper.leading {n : Name} (h : n.Proper) : n.Leading :=
  ⟨h.nonempty, h.undivided, h.not_here, h.not_up⟩

namespace Path

variable {p : Path} {n : Name} {names : List Name}

theorem not_isIdle_of_leading (h : n.Leading) : isIdle n = false := by
  simp [isIdle, h.nonempty, h.not_here]

theorem ofName?_leading (h : n.Leading) : Component.ofName? n = some (.name n) := by
  rw [Component.ofName?, not_isIdle_of_leading h, if_neg (by simp), if_neg h.not_up]

theorem ofName?_nil : Component.ofName? [] = none := rfl

theorem components_join (given : p.bytes ≠ []) (h : n.Proper) :
    (p.join ⟨n⟩).components = p.components ++ [.name n] := by
  have absolute := isAbsolute_join given h
  obtain ⟨bs, joined, before⟩ := bytes_join given h
  obtain ⟨first, rest, pieces⟩ : ∃ first rest, split bs = first :: rest :=
    List.exists_cons_of_ne_nil (split_ne_nil bs)
  -- A slash at the end of a path only begins an empty stretch, which is no component.
  obtain ⟨behind, stretches, same⟩ : ∃ behind, split p.bytes = first :: behind ∧
      behind.filterMap Component.ofName? = rest.filterMap Component.ofName? := by
    rcases before with ⟨bytes, -⟩ | ⟨bytes, -⟩
    · refine ⟨rest ++ [[]], ?_, ?_⟩
      · rw [bytes, split_append_slash, pieces]
        rfl
      · simp [ofName?_nil]
    · exact ⟨rest, by rw [bytes, pieces], rfl⟩
  rw [components, components, absolute, joined, split_append_slash, pieces, stretches,
    split_of_not_mem h.undivided]
  simp only [List.cons_append, List.filterMap_append, same, List.filterMap_cons_some
    (ofName?_leading h.leading), List.filterMap_nil]
  split
  · rfl
  · split
    · rfl
    · rw [List.append_assoc]

theorem components_extend (given : p.bytes ≠ []) (h : ∀ n ∈ names, n.Proper) :
    (p.extend names).components = p.components ++ names.map .name := by
  induction names generalizing p with
  | nil => simp [extend]
  | cons n names ih =>
    obtain ⟨here, behind⟩ := List.forall_mem_cons.mp h
    have next : (p.join ⟨n⟩).bytes ≠ [] := bytes_join_ne_nil given here
    change ((p.join ⟨n⟩).extend names).components = _
    rw [ih next behind, components_join given here, List.append_assoc]
    rfl

/-- The name that a component is. -/
def Component.name? : Component → Option Name
  | .name n => some n
  | _ => none

/-- The names in a path behind the components of `base`. -/
def namesBelow (p base : Path) : List Name :=
  (p.components.drop base.components.length).filterMap Component.name?

theorem namesBelow_extend (given : p.bytes ≠ []) (h : ∀ n ∈ names, n.Proper) :
    (p.extend names).namesBelow p = names := by
  rw [namesBelow, components_extend given h, List.drop_left, List.filterMap_map]
  exact List.filterMap_some

end Path

end RemoteIndex
