import ScriptFold.Library.Loading
import ScriptFold.Proofs.Dividing
import ScriptFold.Proofs.Lists
import ScriptFold.Proofs.Results

/-!
# Successful runs of loading

`x.Yields s a s'` says that a loading computation run from the state `s` succeeds with `a` and ends
in `s'`. There is one equation for each way a computation is put together, and from them one for
each function that loads: a run of `resolve` either finds the name among the templates or compiles
its definition with the name in progress and adds the result.
-/

namespace ScriptFold

variable {α β : Type} {s s' : Loading}

namespace LoadM

/-- Run from a state, the computation succeeds with a value and ends in a state. -/
def Yields (x : LoadM α) (s : Loading) (a : α) (s' : Loading) : Prop :=
  x.run.run s = (.ok a, s')

theorem yields_pure {a b : α} : Yields (pure a) s b s' ↔ b = a ∧ s' = s := by
  constructor
  · intro h
    cases h
    exact ⟨rfl, rfl⟩
  · rintro ⟨rfl, rfl⟩
    rfl

/-- Two computations in turn succeed if the first does and the second does from there. -/
theorem yields_bind {x : LoadM α} {f : α → LoadM β} {b : β} :
    Yields (x >>= f) s b s' ↔ ∃ a between, Yields x s a between ∧ Yields (f a) between b s' :=
  run_bind_eq_ok_iff

/-- Changing the value of a computation leaves the state it ends in. -/
theorem yields_map {x : LoadM α} {g : α → β} {b : β} :
    Yields (x >>= fun a => pure (g a)) s b s' ↔ ∃ a, Yields x s a s' ∧ b = g a := by
  simp only [yields_bind, yields_pure]
  constructor
  · rintro ⟨a, _, ha, rfl, rfl⟩
    exact ⟨a, ha, rfl⟩
  · rintro ⟨a, ha, rfl⟩
    exact ⟨a, s', ha, rfl, rfl⟩

/-- Asking for the state gives it and leaves it. -/
theorem yields_get {state : Loading} : Yields get s state s' ↔ state = s ∧ s' = s := by
  constructor
  · intro h
    cases h
    exact ⟨rfl, rfl⟩
  · rintro ⟨rfl, rfl⟩
    rfl

theorem yields_modify {f : Loading → Loading} {u : Unit} :
    Yields (modify f) s u s' ↔ s' = f s := by
  constructor
  · intro h
    cases h
    rfl
  · rintro rfl
    rfl

/-- A thrown error is no success. -/
theorem not_yields_throw {e : DefinitionError} {a : α} : ¬ Yields (throw e) s a s' := by
  intro h
  cases h

theorem yields_mapM_nil {f : α → LoadM β} {bs : List β} :
    Yields ([].mapM f) s bs s' ↔ bs = [] ∧ s' = s := by
  rw [List.mapM_nil, yields_pure]

/-- A pass over a list succeeds if the step for the first entry does and the pass over the others
does from there. -/
theorem yields_mapM_cons {f : α → LoadM β} {a : α} {as : List α} {bs : List β} :
    Yields ((a :: as).mapM f) s bs s' ↔
      ∃ b rest between, bs = b :: rest ∧ Yields (f a) s b between ∧
        Yields (as.mapM f) between rest s' := by
  simp only [List.mapM_cons, yields_bind, yields_pure]
  constructor
  · rintro ⟨b, between, hb, rest, _, hrest, rfl, rfl⟩
    exact ⟨b, rest, between, rfl, hb, hrest⟩
  · rintro ⟨b, rest, between, rfl, hb, hrest⟩
    exact ⟨b, between, hb, rest, s', hrest, rfl, rfl⟩

/-- What each step of a pass over a list keeps and what it says of its own entry, the whole pass
keeps and says of every entry, if later steps do not undo it. -/
theorem forall₂_of_yields_mapM {f : α → LoadM β} {as : List α} {bs : List β}
    {R : Loading → Loading → Prop} {P : Loading → α → β → Prop}
    (refl : ∀ s, R s s) (trans : ∀ {s₁ s₂ s₃}, R s₁ s₂ → R s₂ s₃ → R s₁ s₃)
    (keep : ∀ {s s' a b}, R s s' → P s a b → P s' a b)
    (step : ∀ a ∈ as, ∀ {s b s'}, Yields (f a) s b s' → R s s' ∧ P s' a b)
    (h : Yields (as.mapM f) s bs s') : R s s' ∧ List.Forall₂ (P s') as bs := by
  induction as generalizing s bs with
  | nil =>
    obtain ⟨rfl, rfl⟩ := yields_mapM_nil.1 h
    exact ⟨refl _, .nil⟩
  | cons a as ih =>
    obtain ⟨b, rest, between, rfl, hb, hrest⟩ := yields_mapM_cons.1 h
    obtain ⟨hrel, hsays⟩ := step a List.mem_cons_self hb
    obtain ⟨hrel', hrest⟩ := ih (fun a ha => step a (List.mem_cons_of_mem _ ha)) hrest
    exact ⟨trans hrel hrel', .cons (keep hrel' hsays) hrest⟩

/-- A pass over a list succeeds if each step does from every state that keeps an invariant. -/
theorem exists_yields_mapM {f : α → LoadM β} {as : List α} {bs : List β} {Inv : Loading → Prop}
    (h : List.Forall₂ (fun a b => ∀ s, Inv s → ∃ s', Yields (f a) s b s' ∧ Inv s') as bs)
    (hs : Inv s) : ∃ s', Yields (as.mapM f) s bs s' ∧ Inv s' := by
  induction h generalizing s with
  | nil => exact ⟨s, yields_mapM_nil.2 ⟨rfl, rfl⟩, hs⟩
  | cons step _ ih =>
    obtain ⟨between, hb, hbetween⟩ := step s hs
    obtain ⟨s', hrest, hs'⟩ := ih hbetween
    exact ⟨s', yields_mapM_cons.2 ⟨_, _, between, rfl, hb, hrest⟩, hs'⟩

end LoadM

open LoadM

namespace Definition.Entry

variable {template : String} {resolve : String → LoadM Template}

/-- Compiling a line gives the pattern of its text and leaves the state. -/
theorem yields_compileLine {line : String} {p : LinePattern} :
    Yields (compileLine template line) s p s' ↔ p.text = line ∧ s' = s := by
  rw [← LinePattern.compile_eq_ok_iff, compileLine]
  cases LinePattern.compile line with
  | ok q =>
    rw [yields_pure, Except.ok.injEq, eq_comm]
  | error e =>
    constructor
    · intro h
      exact absurd h not_yields_throw
    · rintro ⟨h, -⟩
      simp at h

theorem yields_compileMember_line {text : String} {m : Member} :
    Yields (compileMember template resolve (.line text)) s m s' ↔
      ∃ p, Yields (compileLine template text) s p s' ∧ m = .line p :=
  yields_map

/-- A reference in a group compiles to the template it is resolved to. -/
theorem yields_compileMember_ref {name : String} {m : Member} :
    Yields (compileMember template resolve (.ref name)) s m s' ↔
      ∃ t, Yields (resolve name) s t s' ∧ m = .template t :=
  yields_map

/-- A group in a group does not compile. -/
theorem not_yields_compileMember_group {entries : List Entry} {m : Member} :
    ¬ Yields (compileMember template resolve (.group entries)) s m s' :=
  not_yields_throw

theorem yields_compile_line {text : String} {e : Element} :
    Yields (compile template resolve (.line text)) s e s' ↔
      ∃ p, Yields (compileLine template text) s p s' ∧ e = .line p :=
  yields_map

/-- A reference compiles to the template it is resolved to. -/
theorem yields_compile_ref {name : String} {e : Element} :
    Yields (compile template resolve (.ref name)) s e s' ↔
      ∃ t, Yields (resolve name) s t s' ∧ e = .template t :=
  yields_map

/-- A group compiles to the members its entries compile to, in their order. -/
theorem yields_compile_group {entries : List Entry} {e : Element} :
    Yields (compile template resolve (.group entries)) s e s' ↔
      ∃ members, Yields (entries.mapM (compileMember template resolve)) s members s' ∧
        e = .group members :=
  yields_map

end Definition.Entry

/-- A definition compiles if it has no defects, to the elements its entries compile to in their
order. -/
theorem Template.yields_compile {name : String} {kind : Kind} {d : Definition}
    {resolve : String → LoadM Template} {t : Template} :
    Yields (Template.compile name kind d resolve) s t s' ↔
      d.defects name = [] ∧ ∃ elements,
        Yields (d.entries.mapM (·.compile name resolve)) s elements s' ∧
          t = ⟨name, kind, elements⟩ := by
  rw [Template.compile]
  split
  · next hd =>
    rw [hd, yields_map]
    exact (and_iff_right rfl).symm
  · next hd =>
    constructor
    · intro h
      exact absurd h not_yields_throw
    · rintro ⟨h, -⟩
      exact absurd h hd

/-- How a name is resolved, apart from why that ends. -/
theorem Source.resolve_eq (source : Source) (chain : List String) (name : String) :
    source.resolve chain name = do
      match (← get).templates.get? name with
      | some t => return t
      | none =>
        if name ∈ chain then throw (.cycle (cycleAt chain name))
        else
          modify (Loading.note (source.announce name))
          match source.load name with
          | .error e => throw (.load name e)
          | .ok (kind, d) =>
            let t ← Template.compile name kind d (source.resolve (chain ++ [name]))
            modify (Loading.add t)
            return t := by
  rw [resolve]
  refine congrArg (get >>= ·) (funext fun state => ?_)
  cases state.templates.get? name with
  | some t => rfl
  | none =>
    by_cases hc : name ∈ chain
    · simp only [hc, dite_true, if_true]
    · simp only [hc, dite_false, if_false]
      refine congrArg (modify _ >>= ·) (funext fun _ => ?_)
      split
      · next e he => rw [he]
      · next kind d hd => rw [hd]

/-- A name is resolved by finding its template, or by compiling its definition with the name in
progress and adding the template. -/
theorem Source.yields_resolve {source : Source} {chain : List String} {name : String}
    {t : Template} :
    Yields (source.resolve chain name) s t s' ↔
      (s.templates.get? name = some t ∧ s' = s) ∨
      (s.templates.get? name = none ∧ name ∉ chain ∧
        ∃ kind d between, source.load name = .ok (kind, d) ∧
          Yields (Template.compile name kind d (source.resolve (chain ++ [name])))
            (s.note (source.announce name)) t between ∧
          s' = between.add t) := by
  rw [Source.resolve_eq, yields_bind]
  simp only [yields_get]
  constructor
  · rintro ⟨_, _, ⟨rfl, rfl⟩, h⟩
    split at h
    · next found hf =>
      obtain ⟨rfl, rfl⟩ := yields_pure.1 h
      exact .inl ⟨hf, rfl⟩
    · next hf =>
      split at h
      · exact absurd h not_yields_throw
      · next hc =>
        obtain ⟨_, noted, hn, h⟩ := yields_bind.1 h
        obtain rfl := yields_modify.1 hn
        split at h
        · exact absurd h not_yields_throw
        · next kind d hl =>
          obtain ⟨t', between, ht, h⟩ := yields_bind.1 h
          obtain ⟨_, added, ha, h⟩ := yields_bind.1 h
          obtain rfl := yields_modify.1 ha
          obtain ⟨rfl, rfl⟩ := yields_pure.1 h
          exact .inr ⟨hf, hc, kind, d, between, hl, ht, rfl⟩
  · rintro (⟨hf, rfl⟩ | ⟨hf, hc, kind, d, between, hl, ht, rfl⟩)
    · refine ⟨s', s', ⟨rfl, rfl⟩, ?_⟩
      rw [hf]
      exact yields_pure.2 ⟨rfl, rfl⟩
    · refine ⟨s, s, ⟨rfl, rfl⟩, ?_⟩
      rw [hf, if_neg hc, hl]
      refine yields_bind.2 ⟨(), _, yields_modify.2 rfl, yields_bind.2 ⟨t, between, ht, ?_⟩⟩
      exact yields_bind.2 ⟨(), _, yields_modify.2 rfl, yields_pure.2 ⟨rfl, rfl⟩⟩

theorem Source.yields_resolveAll_nil {source : Source} {u : Unit} :
    Yields (source.resolveAll []) s u s' ↔ s' = s := by
  rw [Source.resolveAll, yields_pure]
  exact and_iff_right rfl

/-- Names are resolved in turn, each with none in progress. -/
theorem Source.yields_resolveAll_cons {source : Source} {name : String} {rest : List String}
    {u : Unit} :
    Yields (source.resolveAll (name :: rest)) s u s' ↔
      ∃ t between, Yields (source.resolve [] name) s t between ∧
        Yields (source.resolveAll rest) between () s' := by
  rw [Source.resolveAll, yields_bind]

/-- A library is loaded by a successful run over the names, and is what the run ends with. -/
theorem Library.load_eq_ok_iff_yields {source : Source} {names : List String} {lib : Library} :
    load source names = .ok lib ↔
      ∃ log, Yields (source.resolveAll names) ⟨∅, []⟩ () ⟨lib, log⟩ := by
  simp only [load, Source.run, Yields]
  constructor
  · intro h
    split at h
    · next state hs =>
      cases h
      exact ⟨state.log, hs⟩
    · cases h
  · rintro ⟨log, h⟩
    rw [h]

end ScriptFold
