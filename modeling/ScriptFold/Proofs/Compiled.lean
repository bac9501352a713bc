import ScriptFold.Proofs.LoadedLibrary

/-!
# Compiled templates

The only way to a template is to compile a definition, and who compiles it gives the templates it
refers to, which were compiled themselves. So what compiling checks holds at every level of a
template (`Template.Compiled`). The templates of a loaded library are compiled.
-/

namespace ScriptFold

open LoadM

/-- A template that was compiled from a definition, as were all those it refers to. -/
inductive Template.Compiled : Template → Prop
  | intro {name : String} {kind : Kind} {d : Definition} {resolve : String → LoadM Template}
      {s s' : Loading} {t : Template}
      (yields : Yields (Template.compile name kind d resolve) s t s')
      (references : ∀ u ∈ t.templates, u.Compiled) : t.Compiled

namespace Library

/-- Gives the templates of a library by name. -/
def resolve (lib : Library) (name : String) : LoadM Template :=
  match lib.get? name with
  | some t => return t
  | none => throw (.load name (.notFound name))

theorem yields_resolve {lib : Library} {name : String} {t : Template}
    (h : lib.get? name = some t) (s : Loading) : Yields (lib.resolve name) s t s := by
  rw [resolve, h]
  exact yields_pure.2 ⟨rfl, rfl⟩

/-- The templates of a library that mirrors a source are compiled. -/
theorem MirrorsSource.compiled {lib : Library} {source : Source} (h : lib.MirrorsSource source)
    {name : String} {t : Template} (ht : lib.get? name = some t) : t.Compiled := by
  -- the templates referred to are less deep
  induction hn : t.depth using Nat.strong_induction_on generalizing name t with
  | _ n ih =>
    obtain ⟨kind, d, hm⟩ := h name t ht
    have hg : Definition.Entry.GivesEach lib d.references lib.resolve := by
      intro target _ u hu s hs
      exact ⟨s, yields_resolve hu s, hs⟩
    obtain ⟨s', hy, -⟩ := exists_yields_mapM (s := ⟨∅, []⟩) (f := (·.compile name lib.resolve))
      (forall₂_imp_of_mem hm.entries fun entry hentry e he =>
        Definition.Entry.exists_yields_compile hg (fun target htarget => by
          rw [Definition.references, Definition.Entry.listed_eq]
          exact List.mem_flatMap.2 ⟨entry, hentry, htarget⟩) he)
      (NameMap.empty_le lib)
    have heq : t = ⟨name, kind, t.elements⟩ := by
      cases t
      cases hm.named
      cases hm.kinded
      rfl
    refine .intro (Template.yields_compile.2 ⟨hm.sound, t.elements, hy, heq⟩) ?_
    intro u hu
    exact ih _ (hn ▸ Template.depth_lt_of_mem_templates hu) (h.get?_of_mem_templates ht hu) rfl

end Library

end ScriptFold
