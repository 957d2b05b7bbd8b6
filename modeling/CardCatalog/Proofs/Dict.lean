import CardCatalog.Dict

/-!
A map by its entries: reading an entry is being one, and a list of pairs whose
keys are distinct comes out with the same pairs, only in another order.
-/

namespace CardCatalog.Dict

variable {α β : Type}

theorem keys_nodup (d : Dict α) : (d.entries.map (·.1)).Nodup := by
  refine List.pairwise_map.mpr (d.ascending.imp fun below same => ?_)
  exact List.lt_irrefl _ (same ▸ below)

theorem get?_eq_some {d : Dict α} {key : Text} {value : α} :
    d.get? key = some value ↔ (key, value) ∈ d.entries := by
  have unique := d.keys_nodup
  unfold get?
  generalize d.entries = entries at unique
  induction entries with
  | nil => simp
  | cons entry rest ih =>
    obtain ⟨k, v⟩ := entry
    obtain ⟨fresh, tail⟩ := List.nodup_cons.mp unique
    by_cases hit : k = key
    · subst hit
      have absent : (k, value) ∉ rest := fun member =>
        fresh (List.mem_map.mpr ⟨(k, value), member, rfl⟩)
      simp [absent, eq_comm]
    · have other : (key, value) ≠ (k, v) := fun same => hit (Prod.mk.inj same).1.symm
      rw [List.find?_cons, beq_false_of_ne hit, List.mem_cons, or_iff_right other]
      exact ih tail

theorem place_perm {key : Text} {entries : List (Text × α)} (fresh : key ∉ entries.map (·.1))
    (value : α) : (place key value entries).Perm ((key, value) :: entries) := by
  induction entries with
  | nil => exact List.Perm.refl _
  | cons entry rest ih =>
    obtain ⟨k, v⟩ := entry
    have differ : key ≠ k := fun same => fresh (by simp [same])
    have absent : key ∉ rest.map (·.1) := fun member => fresh (List.mem_cons_of_mem k member)
    unfold place
    split
    · exact List.Perm.refl _
    · exact ((ih absent).cons (k, v)).trans (List.Perm.swap _ _ _)

theorem foldl_insert_perm (d : Dict α) (pairs : List (Text × α))
    (unique : ((d.entries ++ pairs).map (·.1)).Nodup) :
    (pairs.foldl (fun d pair => d.insert pair.1 pair.2) d).entries.Perm (d.entries ++ pairs) := by
  induction pairs generalizing d with
  | nil => simp
  | cons pair rest ih =>
    have fresh : pair.1 ∉ d.entries.map (·.1) := by
      rw [List.map_append, List.nodup_append] at unique
      exact fun member => unique.2.2 pair.1 member pair.1 (by simp) rfl
    have placed : (d.insert pair.1 pair.2).entries.Perm (pair :: d.entries) :=
      place_perm fresh pair.2
    have moved : ((d.insert pair.1 pair.2).entries ++ rest).Perm (d.entries ++ pair :: rest) :=
      (placed.append_right rest).trans List.perm_middle.symm
    exact (ih _ ((moved.map (·.1)).nodup_iff.mpr unique)).trans moved

theorem forall_foldl_insert {P : Text → α → Prop} {key : β → Text} {value : Dict α → β → α}
    {given : List β}
    (each : ∀ d : Dict α, (∀ e ∈ d.entries, P e.1 e.2) → ∀ x ∈ given, P (key x) (value d x))
    (d : Dict α) (start : ∀ e ∈ d.entries, P e.1 e.2) :
    ∀ e ∈ (given.foldl (fun d x => d.insert (key x) (value d x)) d).entries, P e.1 e.2 := by
  induction given generalizing d with
  | nil => exact start
  | cons x rest ih =>
    apply ih fun d holds y member => each d holds y (List.mem_cons_of_mem x member)
    intro e member
    rcases mem_place member with rfl | old
    · exact each d start x (by simp)
    · exact start e old

theorem ofPairs_perm {pairs : List (Text × α)} (unique : (pairs.map (·.1)).Nodup) :
    (ofPairs pairs).entries.Perm pairs :=
  foldl_insert_perm empty pairs unique

theorem get?_ofPairs {pairs : List (Text × α)} (unique : (pairs.map (·.1)).Nodup) {key : Text}
    {value : α} : (ofPairs pairs).get? key = some value ↔ (key, value) ∈ pairs := by
  rw [get?_eq_some]
  exact (ofPairs_perm unique).mem_iff

theorem get?_foldl_insert (d : Dict α) (pairs : List (Text × α)) (key : Text) :
    (pairs.foldl (fun d pair => d.insert pair.1 pair.2) d).get? key =
      ((pairs.reverse.find? (·.1 == key)).map (·.2)).or (d.get? key) := by
  induction pairs generalizing d with
  | nil => rfl
  | cons pair rest ih =>
    rw [List.foldl_cons, ih, List.reverse_cons, List.find?_append, Option.map_or, Option.or_assoc]
    congr 1
    by_cases same : key = pair.1
    · subst same
      simp [get?_insert_self]
    · have apart : (pair.1 == key) = false := by simpa using Ne.symm same
      simp [get?_insert_other _ same, apart]

theorem get?_ofPairs_last (pairs : List (Text × α)) (key : Text) :
    (ofPairs pairs).get? key = (pairs.reverse.find? (·.1 == key)).map (·.2) := by
  rw [ofPairs, get?_foldl_insert]
  exact Option.or_none

theorem ext_entries {d e : Dict α}
    (same : ∀ key value, (key, value) ∈ d.entries ↔ (key, value) ∈ e.entries) : d = e := by
  have once (d : Dict α) : d.entries.Nodup := by
    refine d.ascending.imp fun below same => ?_
    exact List.lt_irrefl _ (same ▸ below)
  refine eq_of_entries (List.Perm.eq_of_pairwise ?_ d.ascending e.ascending ?_)
  · intro a b _ _ below above
    exact absurd (List.lt_trans below above) (List.lt_irrefl _)
  · exact (List.perm_ext_iff_of_nodup (once d) (once e)).mpr fun a => same a.1 a.2

theorem mem_filterMap {f : Text → α → Option β} {d : Dict α} {key : Text} {value : β} :
    (key, value) ∈ (d.filterMap f).entries ↔
      ∃ old, (key, old) ∈ d.entries ∧ f key old = some value := by
  simp only [filterMap, List.mem_filterMap, Option.map_eq_some_iff]
  constructor
  · rintro ⟨⟨k, old⟩, member, new, made, same⟩
    cases same
    exact ⟨old, member, made⟩
  · rintro ⟨old, member, made⟩
    exact ⟨(key, old), member, value, made, rfl⟩

theorem get?_filterMap (f : Text → α → Option β) (d : Dict α) (key : Text) :
    (d.filterMap f).get? key = (d.get? key).bind (f key) := by
  ext value
  rw [get?_eq_some, mem_filterMap, Option.bind_eq_some_iff]
  simp only [get?_eq_some]

theorem filterMap_eq_self {f : Text → α → Option α} {d : Dict α}
    (kept : ∀ entry ∈ d.entries, f entry.1 entry.2 = some entry.2) : d.filterMap f = d := by
  refine eq_of_entries (?_ : d.entries.filterMap _ = d.entries)
  generalize d.entries = entries at kept
  induction entries with
  | nil => rfl
  | cons entry rest ih =>
    have tail := ih fun other member => kept other (List.mem_cons_of_mem entry member)
    simp [kept entry (by simp), tail]

/-- The first entry with a property is the one with the least key. -/
theorem find_entries {d : Dict α} {p : Text × α → Bool} {key : Text} {value : α} :
    d.entries.find? p = some (key, value) ↔
      d.get? key = some value ∧ p (key, value) = true ∧
        ∀ other found, d.get? other = some found → p (other, found) = true → other ≠ key →
          key < other := by
  -- the entries ascend, so what is found first is below whatever else there is to find
  have least {entry : Text × α} (first : d.entries.find? p = some entry) :
      ∀ other ∈ d.entries, p other = true → other ≠ entry → entry.1 < other.1 := by
    obtain ⟨_, front, back, split, passed⟩ := List.find?_eq_some_iff_append.mp first
    have ascending := d.ascending
    rw [split] at ascending ⊢
    intro other member holds apart
    rcases List.mem_append.mp member with before | after
    · have fails := passed other before
      rw [holds] at fails
      cases fails
    · have tail := (List.pairwise_append.mp ascending).2.1
      exact (List.pairwise_cons.mp tail).1 other (List.mem_of_ne_of_mem apart after)
  constructor
  · intro first
    refine ⟨get?_eq_some.mpr (List.mem_of_find?_eq_some first), List.find?_some first, ?_⟩
    intro other found reads holds apart
    exact least first (other, found) (get?_eq_some.mp reads) holds
      fun same => apart (Prod.mk.inj same).1
  · rintro ⟨reads, holds, first⟩
    have member := get?_eq_some.mp reads
    cases answer : d.entries.find? p with
    | none => exact absurd holds (List.find?_eq_none.mp answer _ member)
    | some entry =>
      by_cases same : (key, value) = entry
      · rw [same]
      · have below := least answer _ member holds same
        have listed : d.get? entry.1 = some entry.2 :=
          get?_eq_some.mpr (List.mem_of_find?_eq_some answer)
        have apart : entry.1 ≠ key := fun alike => List.lt_irrefl _ (alike ▸ below)
        have above := first entry.1 entry.2 listed (List.find?_some answer) apart
        exact absurd (List.lt_trans below above) (List.lt_irrefl _)

end CardCatalog.Dict
