import Mathlib.Data.List.Induction
import Mathlib.Data.List.Nodup

/-!
# Grouping by a key

`groupBy` collects the values of the elements of a list under their keys, each key at
the place where it came first, in one pass.

- `groupBy_spec`: every key has one group, with the values of its elements in order.
- `Grouped.flatMap`: together the groups hold every value as often as it came.
-/

namespace Grouping

variable {α β κ : Type*} [DecidableEq κ]

/-- The value at the end of the group of its key, or in a new group. -/
def insert (key : κ) (value : β) (groups : List (κ × List β)) : List (κ × List β) :=
  if key ∈ groups.map Prod.fst then
    groups.map fun group => if group.1 = key then (group.1, group.2 ++ [value]) else group
  else groups ++ [(key, [value])]

def groupBy (key : α → κ) (value : α → β) (l : List α) : List (κ × List β) :=
  l.foldl (fun groups a => insert (key a) (value a) groups) []

/-- The values of the elements with a key. -/
def valuesOf (key : α → κ) (value : α → β) (l : List α) (k : κ) : List β :=
  (l.filter (key · = k)).map value

variable {key : α → κ} {value : α → β} {l : List α}

theorem valuesOf_concat (l : List α) (a : α) (k : κ) : valuesOf key value (l ++ [a]) k =
    valuesOf key value l k ++ if key a = k then [value a] else [] := by
  rw [valuesOf, List.filter_append, List.map_append, ← valuesOf]
  by_cases h : key a = k <;> simp [h]

/-- What the groups of a list are. -/
structure Grouped (key : α → κ) (value : α → β) (l : List α) (groups : List (κ × List β)) :
    Prop where
  nodup : (groups.map Prod.fst).Nodup
  mem : ∀ k, k ∈ groups.map Prod.fst ↔ ∃ a ∈ l, key a = k
  values : ∀ group ∈ groups, group.2 = valuesOf key value l group.1

theorem Grouped.insert {groups : List (κ × List β)} (h : Grouped key value l groups) (a : α) :
    Grouped key value (l ++ [a]) (insert (key a) (value a) groups) := by
  have hmem : ∀ k, (∃ b ∈ l ++ [a], key b = k) ↔ (∃ b ∈ l, key b = k) ∨ key a = k := by
    intro k
    simp only [List.mem_append, List.mem_singleton, or_and_right, exists_or, exists_eq_left]
  rw [Grouping.insert]
  split_ifs with hkey
  · have hkeys : (groups.map fun group =>
        if group.1 = key a then (group.1, group.2 ++ [value a]) else group).map Prod.fst
          = groups.map Prod.fst := by
      rw [List.map_map]
      refine List.map_congr_left fun group _ => ?_
      rw [Function.comp_apply]
      split_ifs <;> rfl
    refine ⟨hkeys ▸ h.nodup, fun k => ?_, fun group hgroup => ?_⟩
    · rw [hkeys, hmem, h.mem]
      refine ⟨.inl, fun hk => hk.elim id ?_⟩
      rintro rfl
      exact (h.mem _).mp hkey
    · obtain ⟨old, hold, rfl⟩ := List.mem_map.mp hgroup
      split_ifs with heq
      · rw [valuesOf_concat, if_pos heq.symm, h.values old hold]
      · rw [valuesOf_concat, if_neg fun h => heq h.symm, List.append_nil, h.values old hold]
  · refine ⟨?_, fun k => ?_, fun group hgroup => ?_⟩
    · rw [List.map_append, List.nodup_append_comm]
      exact List.nodup_cons.mpr ⟨hkey, h.nodup⟩
    · rw [hmem, List.map_append, List.mem_append, h.mem, List.map_singleton, List.mem_singleton,
        eq_comm (a := k)]
    · rcases List.mem_append.mp hgroup with hold | hnew
      · have hne : key a ≠ group.1 := by
          rintro heq
          exact hkey (heq ▸ List.mem_map_of_mem hold)
        rw [valuesOf_concat, if_neg hne, List.append_nil, h.values group hold]
      · obtain rfl := List.mem_singleton.mp hnew
        have hnone : valuesOf key value l (key a) = [] := by
          rw [valuesOf, List.map_eq_nil_iff, List.filter_eq_nil_iff]
          intro b hb heq
          exact hkey ((h.mem _).mpr ⟨b, hb, of_decide_eq_true heq⟩)
        rw [valuesOf_concat, if_pos rfl, hnone, List.nil_append]

theorem groupBy_spec (key : α → κ) (value : α → β) (l : List α) :
    Grouped key value l (groupBy key value l) := by
  induction l using List.reverseRecOn with
  | nil => exact ⟨List.nodup_nil, fun k => by simp [groupBy], fun _ h => absurd h List.not_mem_nil⟩
  | append_singleton l a ih =>
    rw [groupBy, List.foldl_append]
    exact ih.insert a

/-- A list, by the keys of its elements. -/
theorem perm_flatMap_valuesOf {keys : List κ} (hnodup : keys.Nodup) (hmem : ∀ a ∈ l, key a ∈ keys) :
    (keys.flatMap (valuesOf key value l)).Perm (l.map value) := by
  induction keys generalizing l with
  | nil =>
    have hnil : l = [] := List.eq_nil_iff_forall_not_mem.mpr fun a ha =>
      absurd (hmem a ha) List.not_mem_nil
    rw [hnil]
    exact List.Perm.nil
  | cons k keys ih =>
    obtain ⟨hk, hnodup⟩ := List.nodup_cons.mp hnodup
    have hrest : ∀ a ∈ l.filter fun a => !decide (key a = k), key a ∈ keys := by
      intro a ha
      rw [List.mem_filter, Bool.not_eq_true', decide_eq_false_iff_not] at ha
      exact (List.mem_cons.mp (hmem a ha.1)).resolve_left ha.2
    have hsame : ∀ j ∈ keys, valuesOf key value l j
        = valuesOf key value (l.filter fun a => !decide (key a = k)) j := by
      intro j hj
      rw [valuesOf, valuesOf, List.filter_filter]
      congr 1
      refine List.filter_congr fun a _ => ?_
      by_cases ha : key a = j
      · have hne : key a ≠ k := fun h => hk (h ▸ ha ▸ hj)
        simp [ha, ha ▸ hne]
      · simp [ha]
    rw [List.flatMap_cons, List.flatMap_congr hsame, valuesOf]
    refine ((ih hnodup hrest).append_left _).trans ?_
    rw [← List.map_append]
    exact (List.filter_append_perm _ l).map value

theorem Grouped.flatMap {groups : List (κ × List β)} (h : Grouped key value l groups) :
    (groups.flatMap Prod.snd).Perm (l.map value) := by
  have hvalues : groups.flatMap Prod.snd
      = (groups.map Prod.fst).flatMap (valuesOf key value l) := by
    rw [List.flatMap_map]
    exact List.flatMap_congr h.values
  rw [hvalues]
  exact perm_flatMap_valuesOf h.nodup fun a ha => (h.mem _).mpr ⟨a, ha, rfl⟩

end Grouping
