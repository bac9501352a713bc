import ScriptFold.Template.Compiling

/-!
# Loading libraries

Loading compiles the requested templates and all they refer to, each once. A name is resolved by
loading its definition and compiling it, which resolves the names referred to first; a name met
again while it is being resolved closes a cycle. Resolving ends because each step adds a name to
the chain of those in progress, and only names the source supplies get that far.
-/

namespace ScriptFold

/-- The loaded templates by name. -/
abbrev Library := NameMap Template

/-- The state of loading: the templates compiled so far and what was logged. -/
structure Loading where
  templates : Library
  log : List Log.Record

/-- Computations that load templates; what they logged stays when they fail. -/
abbrev LoadM := ExceptT DefinitionError (StateM Loading)

namespace Loading

/-- Adds records to the log. -/
def note (records : List Log.Record) (state : Loading) : Loading :=
  { state with log := state.log ++ records }

/-- Adds a compiled template. -/
def add (t : Template) (state : Loading) : Loading :=
  { templates := state.templates.insert t.name t
    log := state.log ++
      [⟨.debug, .library, s!"compiled {t.display} ({t.lineCount} lines)"⟩] }

end Loading

namespace Source

/-- The number of supplied names that are not in progress. -/
def fresh (source : Source) (chain : List String) : Nat :=
  source.supply.countP fun name => name ∉ chain

theorem countP_append_lt {supply chain : List String} {name : String}
    (hs : name ∈ supply) (hc : name ∉ chain) :
    supply.countP (fun n => n ∉ chain ++ [name]) < supply.countP fun n => n ∉ chain := by
  induction supply with
  | nil => simp at hs
  | cons first rest ih =>
    have hle : rest.countP (fun n => n ∉ chain ++ [name]) ≤ rest.countP fun n => n ∉ chain :=
      List.countP_mono_left fun n _ hn => by simp_all
    simp only [List.countP_cons, List.mem_append, List.mem_singleton, not_or, Bool.decide_and]
      at ih hle ⊢
    by_cases he : first = name
    · subst he
      simp only [hc, not_false_eq_true, not_true, decide_true, decide_false, Bool.and_false,
        Bool.false_eq_true, if_false, if_true]
      omega
    · have hlt := ih ((List.mem_cons.1 hs).resolve_left (Ne.symm he))
      simp only [he, not_false_eq_true, decide_true, Bool.and_true]
      omega

theorem fresh_append_lt {source : Source} {chain : List String} {name : String}
    (hs : name ∈ source.supply) (hc : name ∉ chain) :
    source.fresh (chain ++ [name]) < source.fresh chain :=
  countP_append_lt hs hc

/-- The names from the first occurrence of a name in the chain, closed by the name. -/
def cycleAt (chain : List String) (name : String) : List String :=
  chain.dropWhile (· ≠ name) ++ [name]

/-- The template of a name, given the chain of names in progress. -/
def resolve (source : Source) (chain : List String) (name : String) : LoadM Template := do
  match (← get).templates.get? name with
  | some t => return t
  | none =>
    if _hc : name ∈ chain then throw (.cycle (cycleAt chain name))
    else
      modify (Loading.note (source.announce name))
      match _hl : source.load name with
      | .error e => throw (.load name e)
      | .ok (kind, d) =>
        let t ← Template.compile name kind d fun target => source.resolve (chain ++ [name]) target
        modify (Loading.add t)
        return t
termination_by source.fresh chain
decreasing_by exact fresh_append_lt (source.mem_supply _hl) _hc

/-- Resolves names in turn. -/
def resolveAll (source : Source) : List String → LoadM Unit
  | [] => return
  | name :: rest => do
    let _ ← source.resolve [] name
    source.resolveAll rest

/-- The outcome of loading names from nothing, and the state it ends in. -/
def run (source : Source) (names : List String) : Except DefinitionError Unit × Loading :=
  (source.resolveAll names).run.run ⟨∅, []⟩

end Source

namespace Library

/-- Loads names and every template they refer to. -/
def load (source : Source) (names : List String) : Except DefinitionError Library :=
  match source.run names with
  | (.ok _, state) => .ok state.templates
  | (.error e, _) => .error e

/-- What loading names logs. -/
def loadLog (source : Source) (names : List String) : List Log.Record :=
  match source.run names with
  | (.ok _, state) =>
    state.log ++ [⟨.info, .library, s!"{state.templates.size} templates loaded"⟩]
  | (.error _, state) => state.log

/-- Loads every template a source enumerates. -/
def loadAll (source : Source) : Except DefinitionError Library :=
  match source.names with
  | .ok names => load source names
  | .error cause => .error (.enumerate cause)

/-- What loading every template logs. -/
def loadAllLog (source : Source) : List Log.Record :=
  source.warnings ++
    match source.names with
    | .ok names => loadLog source names
    | .error _ => []

end Library

end ScriptFold
