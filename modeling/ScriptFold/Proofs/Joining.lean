import Mathlib.Order.Bounds.Basic
import ScriptFold.Proofs.Lookup

/-!
# Joins of bindings

Bindings are ordered by what they hold. Two of them unify exactly if they have a common upper bound,
and then to the least one (`Bindings.unify_eq_some_iff_isLUB`), so `unify` is a join that may be
missing. The laws of joins follow from the uniqueness of least upper bounds; that of three bindings
does not depend on the order in which they are unified (`Bindings.bind_unify_eq_some_iff_isLUB`),
and neither does its absence. Binding a name is unifying with a single entry, and overlaying is
unifying without the test for conflicts.
-/

namespace ScriptFold

namespace NameMap

theorem mem_upperBounds_pair {α : Type} {m n u : NameMap α} :
    u ∈ upperBounds {m, n} ↔ m ≤ u ∧ n ≤ u := by
  simp [upperBounds_insert]

theorem insert_of_get? {α : Type} {m : NameMap α} {name : String} {value : α}
    (h : m.get? name = some value) : m.insert name value = m := by
  apply ext_get?
  intro other
  rw [get?_insert]
  split
  · next heq => rw [← heq, h]
  · rfl

end NameMap

namespace Bindings

variable {a b c u : Bindings}

/-! ### Least upper bounds -/

/-- Bindings below common ones give no name two values. -/
theorem agree_of_le (ha : a ≤ u) (hb : b ≤ u) (name known value : String)
    (hk : a.get? name = some known) (hv : b.get? name = some value) : known = value := by
  have hknown : u.get? name = some known := ha name known hk
  have hvalue : u.get? name = some value := hb name value hv
  rw [hknown] at hvalue
  exact Option.some.inj hvalue

theorem overlay_le (ha : a ≤ u) (hb : b ≤ u) : a.overlay b ≤ u := by
  intro name value h
  rw [get?_overlay] at h
  cases hv : b.get? name with
  | some top =>
    rw [hv, Option.some_or] at h
    cases h
    exact hb name value hv
  | none =>
    rw [hv, Option.none_or] at h
    exact ha name value h

theorem isLUB_of_unify (h : a.unify b = some u) : IsLUB {a, b} u := by
  constructor
  · exact NameMap.mem_upperBounds_pair.2 (le_of_unify h)
  · intro v hv
    obtain ⟨ha, hb⟩ := NameMap.mem_upperBounds_pair.1 hv
    obtain ⟨-, rfl⟩ := unify_eq_some_iff.1 h
    exact overlay_le ha hb

/-- Bindings unify as soon as there are some above both. -/
theorem exists_unify_of_le (ha : a ≤ u) (hb : b ≤ u) : ∃ v, a.unify b = some v :=
  ⟨a.overlay b, unify_eq_some_iff.2 ⟨agree_of_le ha hb, rfl⟩⟩

/-- Bindings unify exactly to the least ones that contain both. -/
theorem unify_eq_some_iff_isLUB : a.unify b = some u ↔ IsLUB {a, b} u := by
  constructor
  · exact isLUB_of_unify
  · intro h
    obtain ⟨ha, hb⟩ := NameMap.mem_upperBounds_pair.1 h.1
    obtain ⟨v, hv⟩ := exists_unify_of_le ha hb
    rw [hv, (isLUB_of_unify hv).unique h]

/-- Bindings unify exactly if no name has different values in them. -/
theorem exists_unify_iff :
    (∃ u, a.unify b = some u) ↔
      ¬ ∃ name known value, a.get? name = some known ∧ b.get? name = some value ∧
        known ≠ value := by
  constructor
  · rintro ⟨u, hu⟩ ⟨name, known, value, hk, hv, hne⟩
    exact hne ((unify_eq_some_iff.1 hu).1 name known value hk hv)
  · intro h
    refine ⟨a.overlay b, unify_eq_some_iff.2 ⟨fun name known value hk hv => ?_, rfl⟩⟩
    by_contra hne
    exact h ⟨name, known, value, hk, hv, hne⟩

/-! ### The laws of joins -/

theorem unify_comm (a b : Bindings) : a.unify b = b.unify a := by
  apply Option.ext
  intro u
  rw [unify_eq_some_iff_isLUB, unify_eq_some_iff_isLUB, Set.pair_comm]

theorem unify_self (a : Bindings) : a.unify a = some a := by
  rw [unify_eq_some_iff_isLUB, Set.pair_eq_singleton]
  exact isLUB_singleton

theorem unify_empty (a : Bindings) : a.unify ∅ = some a := by
  rw [unify_comm, empty_unify]

/-- What lies above a join and a third one lies above all three. -/
theorem upperBounds_pair_of_isLUB (h : IsLUB {a, b} u) :
    upperBounds {u, c} = upperBounds {a, b, c} := by
  ext v
  have hu : u ≤ v ↔ a ≤ v ∧ b ≤ v := by
    rw [isLUB_le_iff h, NameMap.mem_upperBounds_pair]
  simp [upperBounds_insert, hu, and_assoc]

/-- Three bindings unify one after the other exactly to the least ones that contain all three. -/
theorem bind_unify_eq_some_iff_isLUB :
    (a.unify b).bind (·.unify c) = some u ↔ IsLUB {a, b, c} u := by
  rw [Option.bind_eq_some_iff]
  constructor
  · rintro ⟨v, hv, hu⟩
    rw [unify_eq_some_iff_isLUB] at hv hu
    exact (isLUB_congr (upperBounds_pair_of_isLUB hv)).1 hu
  · intro h
    have ha : a ≤ u := h.1 (by simp)
    have hb : b ≤ u := h.1 (by simp)
    obtain ⟨v, hv⟩ := exists_unify_of_le ha hb
    have hlub : IsLUB {a, b} v := isLUB_of_unify hv
    refine ⟨v, hv, unify_eq_some_iff_isLUB.2 ?_⟩
    exact (isLUB_congr (upperBounds_pair_of_isLUB hlub)).2 h

/-- The first two of three bindings may be any two of them. -/
theorem bind_unify_rotate (a b c : Bindings) :
    (a.unify b).bind (·.unify c) = (b.unify c).bind (·.unify a) := by
  apply Option.ext
  intro u
  have hset : ({a, b, c} : Set Bindings) = {b, c, a} := by
    rw [Set.insert_comm, Set.pair_comm]
  rw [bind_unify_eq_some_iff_isLUB, bind_unify_eq_some_iff_isLUB, hset]

/-! ### Single entries and overlays -/

/-- Giving a value to a name is unifying with the one entry. -/
theorem bind_eq_unify (a : Bindings) (name value : String) :
    a.bind name value = a.unify (NameMap.ofList [(name, value)]) := by
  have hentries : (NameMap.ofList [(name, value)]).entries = [(name, value)] := rfl
  have hoverlay : a.overlay (NameMap.ofList [(name, value)]) = a.insert name value := rfl
  rw [bind, unify, hoverlay, hentries, agreesWith, List.all_cons, List.all_nil, Bool.and_true]
  cases hk : a.get? name with
  | none => rfl
  | some known =>
    simp only [beq_iff_eq]
    split
    · next heq => rw [NameMap.insert_of_get? (heq ▸ hk)]
    · rfl

theorem overlay_assoc (a b c : Bindings) :
    (a.overlay b).overlay c = a.overlay (b.overlay c) := by
  apply NameMap.ext_get?
  intro name
  rw [get?_overlay, get?_overlay, get?_overlay, get?_overlay, Option.or_assoc]

/-- Bindings form a partial join. Two of them unify exactly if no name has different values in them,
and then to the least bindings that contain both. Unifying is commutative, idempotent and has the
empty bindings as its unit; three bindings unify to the same in any order, or in none. Binding a
name is unifying with its entry alone. Overlaying is associative, looks up in the top first, and
gives what unifying gives wherever that gives anything. -/
theorem unify_partialJoin (a b c : Bindings) (name value : String) :
    ((∃ u, a.unify b = some u) ↔
        ¬ ∃ name known value, a.get? name = some known ∧ b.get? name = some value ∧
          known ≠ value) ∧
      (∀ u, a.unify b = some u ↔ IsLUB {a, b} u) ∧
      a.unify b = b.unify a ∧
      a.unify a = some a ∧
      (a.unify ∅ = some a ∧ unify ∅ a = some a) ∧
      ((a.unify b).bind (·.unify c) = (b.unify c).bind (a.unify ·) ∧
        (a.unify b).bind (·.unify c) = (b.unify c).bind (·.unify a)) ∧
      a.bind name value = a.unify (NameMap.ofList [(name, value)]) ∧
      (a.overlay b).overlay c = a.overlay (b.overlay c) ∧
      (a.overlay b).get? name = (b.get? name).or (a.get? name) ∧
      ∀ u, a.unify b = some u → a.overlay b = u := by
  have hrotate := bind_unify_rotate a b c
  have hassoc : (a.unify b).bind (·.unify c) = (b.unify c).bind (a.unify ·) := by
    rw [hrotate]
    exact congrArg (b.unify c).bind (funext fun v => unify_comm v a)
  refine ⟨exists_unify_iff, fun u => unify_eq_some_iff_isLUB, unify_comm a b, unify_self a,
    ⟨unify_empty a, empty_unify a⟩, ⟨hassoc, hrotate⟩, bind_eq_unify a name value,
    overlay_assoc a b c, get?_overlay a b name, fun u hu => ?_⟩
  exact (unify_eq_some_iff.1 hu).2.symm

/-- The bindings in the middle agree with those on either side, which give `X` two values. -/
example :
    (unify ⟨[("X", "1")], by decide⟩ ⟨[("Y", "2")], by decide⟩).bind
        (·.unify ⟨[("X", "3"), ("Y", "2")], by decide⟩) = none ∧
      (unify ⟨[("Y", "2")], by decide⟩ ⟨[("X", "3"), ("Y", "2")], by decide⟩).bind
        (unify ⟨[("X", "1")], by decide⟩ ·) = none := by
  decide +kernel

end Bindings

end ScriptFold
