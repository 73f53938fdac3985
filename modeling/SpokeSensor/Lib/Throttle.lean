import Mathlib.Data.List.Chain
import Mathlib.Tactic.Linarith

/-!
# Throttled events

Of a sequence of events those are admitted that are due after the last one that was
(`admitted`).

- `admitted_concat`, `latest_concat`: whether one more event is admitted is decided by
  the last one that was.
- `map_admitted`: the selection depends only on which events are due after which.
- `pairwise_admitted`: with times that do not fall back and the rule that a period has
  to pass, the admitted events are a period apart.
- `exists_admitted`: no event comes a period or more after the last admitted one
  without being admitted itself.
- `length_admitted_le`: so their number is bounded by the time that passes.
-/

namespace Throttle

universe u v

variable {T : Type u} {S : Type v} (due : T → T → Prop) [DecidableRel due]

/-- The admitted events, where `last` is the last one so far. -/
def admitted : T → List T → List T
  | _, [] => []
  | last, t :: ts => if due last t then t :: admitted t ts else admitted last ts

/-- The last admitted event after all of them. -/
def latest (last : T) (ts : List T) : T := (admitted due last ts).getLastD last

@[simp] theorem admitted_nil (last : T) : admitted due last [] = [] := rfl

@[simp] theorem latest_nil (last : T) : latest due last [] = last := rfl

variable {due}

theorem admitted_of_due {last t : T} (h : due last t) (ts : List T) :
    admitted due last (t :: ts) = t :: admitted due t ts := if_pos h

theorem admitted_of_not_due {last t : T} (h : ¬ due last t) (ts : List T) :
    admitted due last (t :: ts) = admitted due last ts := if_neg h

theorem latest_of_due {last t : T} (h : due last t) (ts : List T) :
    latest due last (t :: ts) = latest due t ts := by
  rw [latest, admitted_of_due h, List.getLastD_cons, latest]

theorem latest_of_not_due {last t : T} (h : ¬ due last t) (ts : List T) :
    latest due last (t :: ts) = latest due last ts := by
  rw [latest, admitted_of_not_due h, latest]

/-- Whether one more event is admitted is decided by the last one that was. -/
theorem admitted_concat (last : T) (ts : List T) (t : T) :
    admitted due last (ts ++ [t])
      = admitted due last ts ++ if due (latest due last ts) t then [t] else [] := by
  induction ts generalizing last with
  | nil => rfl
  | cons t' ts ih =>
    by_cases h : due last t'
    · rw [List.cons_append, admitted_of_due h, admitted_of_due h, latest_of_due h, ih,
        List.cons_append]
    · rw [List.cons_append, admitted_of_not_due h, admitted_of_not_due h, latest_of_not_due h, ih]

theorem latest_concat (last : T) (ts : List T) (t : T) :
    latest due last (ts ++ [t]) = if due (latest due last ts) t then t else latest due last ts := by
  rw [latest, admitted_concat]
  by_cases h : due (latest due last ts) t
  · rw [if_pos h, if_pos h, List.getLastD_concat]
  · rw [if_neg h, if_neg h, List.append_nil, latest]

/-- Every admitted event was due after the one before it. -/
theorem isChain_admitted (last : T) (ts : List T) :
    (last :: admitted due last ts).IsChain due := by
  induction ts generalizing last with
  | nil => exact List.isChain_singleton last
  | cons t ts ih =>
    by_cases h : due last t
    · rw [admitted_of_due h]
      exact List.isChain_cons_cons.mpr ⟨h, ih t⟩
    · rw [admitted_of_not_due h]
      exact ih last

/-- The selection depends only on which events are due after which. -/
theorem map_admitted {due' : S → S → Prop} [DecidableRel due'] (f : T → S) {last : T} {ts : List T}
    (h : ∀ a ∈ last :: ts, ∀ b ∈ ts, [a, b].Sublist (last :: ts) → (due a b ↔ due' (f a) (f b))) :
    (admitted due last ts).map f = admitted due' (f last) (ts.map f) := by
  induction ts generalizing last with
  | nil => rfl
  | cons t ts ih =>
    have hpair : [last, t].Sublist (last :: t :: ts) := by simp
    have hiff := h last List.mem_cons_self t List.mem_cons_self hpair
    by_cases hdue : due last t
    · rw [admitted_of_due hdue, List.map_cons, List.map_cons, admitted_of_due (hiff.mp hdue), ih]
      intro a ha b hb hab
      exact h a (List.mem_cons_of_mem _ ha) b (List.mem_cons_of_mem _ hb) (hab.cons _)
    · rw [admitted_of_not_due hdue, List.map_cons, admitted_of_not_due (mt hiff.mpr hdue), ih]
      intro a ha b hb hab
      have hsub : (last :: ts).Sublist (last :: t :: ts) :=
        (List.sublist_cons_self t ts).cons_cons last
      exact h a (hsub.subset ha) b (List.mem_cons_of_mem _ hb) (hab.trans hsub)

/-! ## A period -/

/-- At least a period has passed. -/
abbrev After (period a b : ℕ) : Prop := a + period ≤ b

variable {period last : ℕ} {ts : List ℕ}

/-- Admitted events are a period apart. -/
theorem pairwise_admitted : (last :: admitted (After period) last ts).Pairwise (After period) := by
  have htrans : ∀ a b c, After period a b → After period b c → After period a c := by
    intro a b c hab hbc
    have hab : a + period ≤ b := hab
    have hbc : b + period ≤ c := hbc
    show a + period ≤ c
    omega
  have : Trans (After period) (After period) (After period) := ⟨fun {a b c} => htrans a b c⟩
  exact List.isChain_iff_pairwise.mp (isChain_admitted last ts)

/-- No event waits: the last admitted one is less than a period ago. -/
theorem exists_admitted (hperiod : 0 < period) (hsorted : (last :: ts).Pairwise (· ≤ ·)) {t : ℕ}
    (ht : t ∈ ts) : ∃ a ∈ last :: admitted (After period) last ts, a ≤ t ∧ t < a + period := by
  induction ts generalizing last with
  | nil => cases ht
  | cons t' ts ih =>
    obtain ⟨hlast, htail⟩ := List.pairwise_cons.mp hsorted
    by_cases hdue : After period last t'
    · rw [admitted_of_due hdue]
      rcases List.mem_cons.mp ht with rfl | hmem
      · exact ⟨t, by simp, le_rfl, by omega⟩
      · obtain ⟨a, ha, hat⟩ := ih htail hmem
        exact ⟨a, List.mem_cons_of_mem _ ha, hat⟩
    · rw [admitted_of_not_due hdue]
      rcases List.mem_cons.mp ht with rfl | hmem
      · exact ⟨last, List.mem_cons_self, hlast t List.mem_cons_self, Nat.lt_of_not_le hdue⟩
      · refine ih ?_ hmem
        exact List.pairwise_cons.mpr ⟨fun b hb => hlast b (List.mem_cons_of_mem _ hb),
          (List.pairwise_cons.mp htail).2⟩

/-- So many events take so many periods. -/
theorem length_admitted_le {bound : ℕ} (hlast : last ≤ bound) (hts : ∀ t ∈ ts, t ≤ bound) :
    last + (admitted (After period) last ts).length * period ≤ bound := by
  induction ts generalizing last with
  | nil => simpa using hlast
  | cons t ts ih =>
    by_cases hdue : After period last t
    · rw [admitted_of_due hdue, List.length_cons]
      have hrest := ih (hts t List.mem_cons_self) fun b hb => hts b (List.mem_cons_of_mem _ hb)
      have hstep : last + period ≤ t := hdue
      linarith
    · rw [admitted_of_not_due hdue]
      exact ih hlast fun b hb => hts b (List.mem_cons_of_mem _ hb)

end Throttle
