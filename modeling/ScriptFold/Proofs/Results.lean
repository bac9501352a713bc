import Mathlib.Data.List.Forall2

/-!
# Results that may be errors

What is made from results is a result exactly if they all are, and else the error of the first that
is none (`fault?`). Lists of items that may be errors are put one behind the other as lists are.
What also has a state succeeds in turn, each part from the state the one before ended in.
-/

namespace ScriptFold

variable {ε ε' α β : Type}

theorem exists_eq_ok_of_isOk {x : Except ε α} (h : x.isOk = true) : ∃ a, x = .ok a := by
  cases x with
  | error e => cases h
  | ok a => exact ⟨a, rfl⟩

/-- Two steps in turn give a result exactly if the first does and the second does with that. -/
theorem bind_eq_ok_iff {x : Except ε α} {f : α → Except ε β} {b : β} :
    x >>= f = .ok b ↔ ∃ a, x = .ok a ∧ f a = .ok b := by
  cases x with
  | error e =>
    constructor
    · intro h
      cases h
    · rintro ⟨a, h, -⟩
      cases h
  | ok a =>
    constructor
    · exact fun h => ⟨a, rfl, h⟩
    · rintro ⟨a, h, hf⟩
      cases h
      exact hf

/-- Changing a result makes no error of it and no result of an error. -/
theorem map_eq_ok_iff {x : Except ε α} {g : α → β} {b : β} :
    (do return g (← x)) = Except.ok b ↔ ∃ a, x = .ok a ∧ b = g a := by
  rw [bind_eq_ok_iff]
  refine exists_congr fun a => and_congr_right fun _ => ?_
  show Except.ok (g a) = Except.ok b ↔ _
  rw [Except.ok.injEq, eq_comm]

/-- Changing errors leaves results alone. -/
theorem mapError_eq_ok_iff {x : Except ε α} {f : ε → ε'} {a : α} :
    x.mapError f = .ok a ↔ x = .ok a := by
  cases x with
  | error e => exact iff_of_false nofun nofun
  | ok a' =>
    show Except.ok a' = Except.ok a ↔ _
    rw [Except.ok.injEq, Except.ok.injEq]

theorem exists_map_eq_ok_iff {x : Except ε α} {g : α → β} :
    (∃ b, (do return g (← x)) = Except.ok b) ↔ ∃ a, x = .ok a := by
  constructor
  · rintro ⟨b, h⟩
    obtain ⟨a, ha, -⟩ := map_eq_ok_iff.1 h
    exact ⟨a, ha⟩
  · rintro ⟨a, ha⟩
    exact ⟨g a, map_eq_ok_iff.2 ⟨a, ha, rfl⟩⟩

/-- Two lists of which each may be an error are put together exactly if neither is. -/
theorem append_eq_ok_iff {x y : Except ε (List α)} {items : List α} :
    (do return (← x) ++ (← y)) = Except.ok items ↔
      ∃ first second, x = .ok first ∧ y = .ok second ∧ first ++ second = items := by
  rw [bind_eq_ok_iff]
  refine exists_congr fun first => ?_
  rw [map_eq_ok_iff, ← exists_and_left]
  exact exists_congr fun second => and_congr_right fun _ => and_congr_right fun _ => eq_comm

theorem exists_append_eq_ok_iff {x y : Except ε (List α)} :
    (∃ items, (do return (← x) ++ (← y)) = Except.ok items) ↔
      (∃ items, x = .ok items) ∧ ∃ items, y = .ok items := by
  constructor
  · rintro ⟨items, h⟩
    obtain ⟨first, second, hx, hy, -⟩ := append_eq_ok_iff.1 h
    exact ⟨⟨first, hx⟩, second, hy⟩
  · rintro ⟨⟨first, hx⟩, second, hy⟩
    exact ⟨first ++ second, append_eq_ok_iff.2 ⟨first, second, hx, hy, rfl⟩⟩

/-- A pass over a list of what may fail gives a list exactly if each entry gives its entry. -/
theorem mapM_eq_ok_iff {f : α → Except ε β} {as : List α} {bs : List β} :
    as.mapM f = .ok bs ↔ List.Forall₂ (fun a b => f a = .ok b) as bs := by
  induction as generalizing bs with
  | nil =>
    rw [List.mapM_nil, List.forall₂_nil_left_iff]
    constructor
    · intro h
      cases h
      rfl
    · rintro rfl
      rfl
  | cons a as ih =>
    rw [List.mapM_cons, List.forall₂_cons_left_iff, bind_eq_ok_iff]
    constructor
    · rintro ⟨b, hb, h⟩
      obtain ⟨rest, hrest, rfl⟩ := map_eq_ok_iff.1 h
      exact ⟨b, rest, hb, ih.1 hrest, rfl⟩
    · rintro ⟨b, rest, hb, hrest, rfl⟩
      exact ⟨b, hb, map_eq_ok_iff.2 ⟨rest, ih.2 hrest, rfl⟩⟩

/-- A pass over a list does the same with functions that agree on its entries. -/
theorem mapM_congr {m : Type → Type} [Monad m] {f g : α → m β} {as : List α}
    (h : ∀ a ∈ as, f a = g a) : as.mapM f = as.mapM g := by
  have hloop : ∀ done, List.mapM.loop f as done = List.mapM.loop g as done := by
    induction as with
    | nil => exact fun _ => rfl
    | cons a as ih =>
      rw [List.forall_mem_cons] at h
      intro done
      rw [List.mapM.loop, List.mapM.loop, h.1]
      exact congrArg (g a >>= ·) (funext fun b => ih h.2 (b :: done))
  exact hloop []

/-- Nothing in front of a list that may be an error changes nothing. -/
theorem nil_append_result (x : Except ε (List α)) :
    (do return (← Except.ok []) ++ (← x)) = x := by
  cases x <;> rfl

/-- Nothing behind a list that may be an error changes nothing. -/
theorem append_nil_result (x : Except ε (List α)) :
    (do return (← x) ++ (← Except.ok [])) = x := by
  cases x with
  | error e => rfl
  | ok items => exact congrArg Except.ok (List.append_nil items)

/-- Three lists of which each may be an error are put together in either order. -/
theorem append_assoc_result (x y z : Except ε (List α)) :
    (do return (← (do return (← x) ++ (← y))) ++ (← z)) =
      (do return (← x) ++ (← (do return (← y) ++ (← z)))) := by
  cases x with
  | error e => rfl
  | ok first =>
    cases y with
    | error e => rfl
    | ok second =>
      cases z with
      | error e => rfl
      | ok third => exact congrArg Except.ok (List.append_assoc first second third)

/-! ### Computations with a state -/

section Stateful

variable {σ : Type} {s s' : σ}

/-- Two computations in turn: the second runs with the value of the first from the state that one
ends in, unless the first fails. -/
theorem run_bind (x : ExceptT ε (StateM σ) α) (f : α → ExceptT ε (StateM σ) β) (s : σ) :
    (x >>= f).run.run s =
      match x.run.run s with
      | (.ok a, between) => (f a).run.run between
      | (.error e, between) => (.error e, between) := by
  rw [ExceptT.run_bind, StateT.run_bind]
  rcases x.run.run s with ⟨_ | a, between⟩ <;> rfl

/-- Two computations in turn succeed if the first does and the second does from there. -/
theorem run_bind_eq_ok_iff {x : ExceptT ε (StateM σ) α} {f : α → ExceptT ε (StateM σ) β} {b : β} :
    (x >>= f).run.run s = (.ok b, s') ↔
      ∃ a between, x.run.run s = (.ok a, between) ∧ (f a).run.run between = (.ok b, s') := by
  rw [run_bind]
  constructor
  · intro h
    split at h
    · next a between ha => exact ⟨a, between, ha, h⟩
    · cases h
  · rintro ⟨a, between, ha, hb⟩
    rw [ha]
    exact hb

/-- Two computations in turn fail as the first does, or as the second does from where the first
ends. -/
theorem run_bind_eq_error_iff {x : ExceptT ε (StateM σ) α} {f : α → ExceptT ε (StateM σ) β}
    {e : ε} :
    (x >>= f).run.run s = (.error e, s') ↔
      x.run.run s = (.error e, s') ∨
        ∃ a between, x.run.run s = (.ok a, between) ∧ (f a).run.run between = (.error e, s') := by
  rw [run_bind]
  constructor
  · intro h
    split at h
    · next a between ha => exact .inr ⟨a, between, ha, h⟩
    · next cause between hc =>
      cases h
      exact .inl hc
  · rintro (h | ⟨a, between, ha, h⟩)
    · rw [h]
    · rw [ha]
      exact h

/-- Run from a state, the computation succeeds and ends in a state. -/
def Succeeds (x : ExceptT ε (StateM σ) α) (s s' : σ) : Prop :=
  ∃ a, x.run.run s = (.ok a, s')

/-- A value alone succeeds and leaves the state. -/
theorem succeeds_pure {a : α} :
    Succeeds (pure a : ExceptT ε (StateM σ) α) s s' ↔ s' = s := by
  constructor
  · rintro ⟨_, h⟩
    cases h
    rfl
  · rintro rfl
    exact ⟨a, rfl⟩

theorem not_succeeds_throw {e : ε} : ¬ Succeeds (throw e : ExceptT ε (StateM σ) α) s s' := by
  rintro ⟨_, h⟩
  cases h

/-- Two computations in turn succeed if the first does and the second does from there. -/
theorem succeeds_bind {x : ExceptT ε (StateM σ) α} {f : α → ExceptT ε (StateM σ) β} :
    Succeeds (x >>= f) s s' ↔
      ∃ a between, x.run.run s = (.ok a, between) ∧ Succeeds (f a) between s' := by
  simp only [Succeeds, run_bind_eq_ok_iff]
  constructor
  · rintro ⟨b, a, between, ha, hb⟩
    exact ⟨a, between, ha, b, hb⟩
  · rintro ⟨a, between, ha, b, hb⟩
    exact ⟨b, a, between, ha, hb⟩

/-- Changing the value of a computation makes no difference to its success. -/
theorem succeeds_map {x : ExceptT ε (StateM σ) α} {g : α → β} :
    Succeeds (x >>= fun a => pure (g a)) s s' ↔ Succeeds x s s' := by
  simp only [succeeds_bind, succeeds_pure]
  constructor
  · rintro ⟨a, _, ha, rfl⟩
    exact ⟨a, ha⟩
  · rintro ⟨a, ha⟩
    exact ⟨a, s', ha, rfl⟩

theorem succeeds_mapM_nil {f : α → ExceptT ε (StateM σ) β} :
    Succeeds ([].mapM f) s s' ↔ s' = s := by
  rw [List.mapM_nil, succeeds_pure]

/-- A pass over a list succeeds if the step for the first entry does and the pass over the others
does from there. -/
theorem succeeds_mapM_cons {f : α → ExceptT ε (StateM σ) β} {a : α} {as : List α} :
    Succeeds ((a :: as).mapM f) s s' ↔
      ∃ between, Succeeds (f a) s between ∧ Succeeds (as.mapM f) between s' := by
  rw [List.mapM_cons, succeeds_bind]
  simp only [succeeds_map]
  constructor
  · rintro ⟨b, between, hb, h⟩
    exact ⟨between, ⟨b, hb⟩, h⟩
  · rintro ⟨between, ⟨b, hb⟩, h⟩
    exact ⟨b, between, hb, h⟩

theorem succeeds_mapM_singleton {f : α → ExceptT ε (StateM σ) β} {a : α} :
    Succeeds ([a].mapM f) s s' ↔ Succeeds (f a) s s' := by
  simp only [succeeds_mapM_cons, succeeds_mapM_nil]
  constructor
  · rintro ⟨_, h, rfl⟩
    exact h
  · exact fun h => ⟨s', h, rfl⟩

/-- A pass over two lists one behind the other is a pass over each in turn. -/
theorem succeeds_mapM_append {f : α → ExceptT ε (StateM σ) β} {as bs : List α} :
    Succeeds ((as ++ bs).mapM f) s s' ↔
      ∃ between, Succeeds (as.mapM f) s between ∧ Succeeds (bs.mapM f) between s' := by
  induction as generalizing s with
  | nil =>
    simp only [succeeds_mapM_nil, List.nil_append]
    constructor
    · exact fun h => ⟨s, rfl, h⟩
    · rintro ⟨_, rfl, h⟩
      exact h
  | cons a as ih =>
    simp only [List.cons_append, succeeds_mapM_cons, ih]
    constructor
    · rintro ⟨first, ha, between, has, hbs⟩
      exact ⟨between, ⟨first, ha, has⟩, hbs⟩
    · rintro ⟨between, ⟨first, ha, has⟩, hbs⟩
      exact ⟨first, ha, between, has, hbs⟩

/-- If each step of a pass is a pass over a list of its own, and succeeds under a condition where
that one does, then the whole pass is one over all these lists. -/
theorem succeeds_mapM_iff {γ δ : Type} {f : α → ExceptT ε (StateM σ) β}
    {h : γ → ExceptT ε (StateM σ) δ} {parts : α → List γ} {P : α → Prop} {as : List α}
    (each : ∀ a ∈ as, ∀ {s s'}, Succeeds (f a) s s' ↔ P a ∧ Succeeds ((parts a).mapM h) s s') :
    Succeeds (as.mapM f) s s' ↔
      (∀ a ∈ as, P a) ∧ Succeeds ((as.flatMap parts).mapM h) s s' := by
  induction as generalizing s with
  | nil =>
    rw [succeeds_mapM_nil, List.flatMap_nil, succeeds_mapM_nil]
    exact (and_iff_right (List.forall_mem_nil _)).symm
  | cons a as ih =>
    rw [List.forall_mem_cons] at each
    rw [List.flatMap_cons, List.forall_mem_cons, succeeds_mapM_cons, succeeds_mapM_append]
    simp only [each.1, ih each.2]
    constructor
    · rintro ⟨between, ⟨hP, hparts⟩, hrest, hmore⟩
      exact ⟨⟨hP, hrest⟩, between, hparts, hmore⟩
    · rintro ⟨⟨hP, hrest⟩, between, hparts, hmore⟩
      exact ⟨between, ⟨hP, hparts⟩, hrest, hmore⟩

/-- A pass over a list succeeds from every state if each step does. -/
theorem exists_succeeds_mapM {f : α → ExceptT ε (StateM σ) β} {as : List α}
    (h : ∀ a ∈ as, ∀ s, ∃ s', Succeeds (f a) s s') (s : σ) : ∃ s', Succeeds (as.mapM f) s s' := by
  induction as generalizing s with
  | nil => exact ⟨s, succeeds_mapM_nil.2 rfl⟩
  | cons a as ih =>
    rw [List.forall_mem_cons] at h
    obtain ⟨between, ha⟩ := h.1 s
    obtain ⟨s', has⟩ := ih h.2 between
    exact ⟨s', succeeds_mapM_cons.2 ⟨between, ha, has⟩⟩

end Stateful

/-! ### Errors -/

/-- The error in place of a result. -/
def fault? : Except ε α → Option ε
  | .ok _ => none
  | .error e => some e

/-- What has no error is a result. -/
theorem fault?_eq_none_iff {x : Except ε α} : fault? x = none ↔ ∃ a, x = .ok a := by
  cases x with
  | ok a => exact iff_of_true rfl ⟨a, rfl⟩
  | error e => exact iff_of_false nofun nofun

/-- The error of what is no result. -/
theorem fault?_eq_some_iff {x : Except ε α} {e : ε} : fault? x = some e ↔ x = .error e := by
  cases x with
  | ok a => exact iff_of_false nofun nofun
  | error e' =>
    rw [Except.error.injEq]
    exact Option.some_inj

/-- Changing a result leaves the error. -/
theorem fault?_map (x : Except ε α) (g : α → β) : fault? (do return g (← x)) = fault? x := by
  cases x <;> rfl

theorem fault?_mapError (x : Except ε α) (f : ε → ε') :
    fault? (x.mapError f) = (fault? x).map f := by
  cases x <;> rfl

/-- Of two lists put together the error of the first comes before that of the second. -/
theorem fault?_append (x y : Except ε (List α)) :
    fault? (do return (← x) ++ (← y)) = (fault? x).or (fault? y) := by
  cases x with
  | error e => rfl
  | ok first => exact fault?_map y (first ++ ·)

/-- A pass over a list stops at the first entry that fails. -/
theorem fault?_mapM (f : α → Except ε β) (as : List α) :
    fault? (as.mapM f) = as.findSome? fun a => fault? (f a) := by
  induction as with
  | nil => rfl
  | cons a as ih =>
    rw [List.mapM_cons, List.findSome?_cons]
    cases f a with
    | error e => rfl
    | ok b => exact (fault?_map (as.mapM f) (b :: ·)).trans ih

/-- A list has no first error exactly if all its entries give results. -/
theorem findSome?_fault?_eq_none_iff {f : α → Except ε β} {as : List α} :
    (as.findSome? fun a => fault? (f a)) = none ↔ ∀ a ∈ as, ∃ b, f a = .ok b := by
  rw [List.findSome?_eq_none_iff]
  exact forall₂_congr fun a _ => fault?_eq_none_iff

/-- The first error in a list is that of an entry all before which are results. -/
theorem findSome?_fault?_eq_some_iff {f : α → Except ε β} {as : List α} {e : ε} :
    (as.findSome? fun a => fault? (f a)) = some e ↔ ∃ before a after,
      as = before ++ a :: after ∧ (∀ other ∈ before, ∃ b, f other = .ok b) ∧ f a = .error e := by
  rw [List.findSome?_eq_some_iff]
  refine exists_congr fun before => exists_congr fun a => exists_congr fun after =>
    and_congr_right fun _ => and_comm.trans (and_congr ?_ fault?_eq_some_iff)
  exact forall₂_congr fun other _ => fault?_eq_none_iff

end ScriptFold
