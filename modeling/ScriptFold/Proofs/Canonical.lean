import ScriptFold.Proofs.Occurrence

/-!
# The canonical reading of a line

Of all readings of a line by a pattern one is canonical: it starts earliest, and of the readings
that start there its first run is longest, then its second, and so on. The search finds it whenever
there is a reading at all (`Pattern.canonical_or_isEmpty`): a run is tried with every end, the
longest first, and each time it is settled whether the rest can be read before the run is made
shorter. So a line pattern takes the first line with a canonical reading that agrees with the
bindings (`LinePattern.matchIn_first_canonical`).
-/

namespace ScriptFold

namespace Pattern

/-- Of the first two runs that differ in length the one on the left is longer. -/
def AsLong : Runs → Runs → Prop
  | run :: runs, other :: others =>
    other.length < run.length ∨ other.length = run.length ∧ AsLong runs others
  | _, _ => True

variable {head : List Char} {stretches : List (List Char)} {s : List Char}

/-- A reading is canonical if it starts before each other one, or where that starts and with runs
as long. -/
def Reading.Canonical (r : Reading head stretches s) : Prop :=
  ∀ other : Reading head stretches s, r.before.length < other.before.length ∨
    r.before.length = other.before.length ∧ AsLong r.runs other.runs

/-! ### Longest runs -/

theorem after_append (stretch : List Char) (next : List Char → Option Runs) (rest : List Char) :
    after stretch next (stretch ++ rest) = next rest := by
  have hp : stretch.isPrefixOf (stretch ++ rest) = true :=
    List.isPrefixOf_iff_prefix.2 (List.prefix_append _ _)
  rw [after, if_pos hp, List.drop_left]

/-- If some run can be captured before a stretch, then it is captured or a longer one. -/
theorem exists_captureBefore (stretch : List Char) {run rest : List Char}
    {next : List Char → Option Runs} {later : Runs} (hrun : '\n' ∉ run)
    (hnext : next rest = some later) :
    ∃ found, captureBefore stretch next (run ++ stretch ++ rest) = some found ∧
      (run.length < found.1.length ∨ run.length = found.1.length ∧ found.2 = later) := by
  induction run with
  | nil =>
    rw [List.nil_append]
    have hhere : after stretch next (stretch ++ rest) = some later := by rw [after_append, hnext]
    cases hs : stretch ++ rest with
    | nil =>
      rw [hs] at hhere
      rw [captureBefore, hhere]
      exact ⟨_, rfl, .inr ⟨rfl, rfl⟩⟩
    | cons c s =>
      rw [hs] at hhere
      rw [captureBefore, hhere]
      split
      · exact ⟨_, rfl, .inl (Nat.succ_pos _)⟩
      · exact ⟨_, rfl, .inr ⟨rfl, rfl⟩⟩
  | cons c run ih =>
    rw [List.mem_cons, not_or] at hrun
    obtain ⟨found, hfound, hlong⟩ := ih hrun.2
    rw [List.cons_append, List.cons_append, captureBefore, if_neg (Ne.symm hrun.1), hfound]
    refine ⟨_, rfl, ?_⟩
    rw [List.length_cons, List.length_cons]
    exact hlong.imp Nat.succ_lt_succ fun h => ⟨congrArg Nat.succ h.1, h.2⟩

/-- If some runs fit, then runs are captured that are as long. -/
theorem exists_captures {runs : Runs} (h : Fits stretches runs s) :
    ∃ found, captures stretches s = some found ∧ AsLong found runs := by
  induction stretches generalizing s runs with
  | nil => exact ⟨[], rfl, trivial⟩
  | cons stretch later ih =>
    obtain ⟨run, runs, rfl⟩ := List.exists_cons_of_length_eq_add_one h.size
    obtain ⟨hrun, rest, rfl, hrest⟩ := fits_cons_iff.1 h
    obtain ⟨more, hmore, hlong⟩ := ih hrest
    obtain ⟨found, hfound, hcase⟩ := exists_captureBefore stretch hrun hmore
    refine ⟨found.1 :: found.2, by rw [captures, hfound]; rfl, ?_⟩
    obtain hlt | ⟨heq, hlater⟩ := hcase
    · exact .inl hlt
    · exact .inr ⟨heq, hlater ▸ hlong⟩

/-- Runs that are as long as each other and fit the same text are the same. -/
theorem eq_of_asLong {runs others : Runs} (h : Fits stretches runs s)
    (h' : Fits stretches others s) (hlong : AsLong runs others) (hlong' : AsLong others runs) :
    runs = others := by
  induction stretches generalizing s runs others with
  | nil => rw [List.eq_nil_of_length_eq_zero h.size, List.eq_nil_of_length_eq_zero h'.size]
  | cons stretch later ih =>
    obtain ⟨run, runs, rfl⟩ := List.exists_cons_of_length_eq_add_one h.size
    obtain ⟨other, others, rfl⟩ := List.exists_cons_of_length_eq_add_one h'.size
    obtain ⟨-, rest, rfl, hrest⟩ := fits_cons_iff.1 h
    obtain ⟨-, rest', hsame, hrest'⟩ := fits_cons_iff.1 h'
    rw [AsLong] at hlong hlong'
    have hlength : run.length = other.length := by omega
    have hlater : AsLong runs others ∧ AsLong others runs := by
      constructor
      · exact (hlong.resolve_left (by omega)).2
      · exact (hlong'.resolve_left (by omega)).2
    rw [List.append_assoc, List.append_assoc] at hsame
    obtain ⟨rfl, hbehind⟩ := List.append_inj hsame hlength
    obtain rfl := List.append_cancel_left hbehind
    rw [ih hrest hrest' hlater.1 hlater.2]

/-! ### The earliest place -/

namespace Reading

/-- A reading that starts at the start of a line leaves runs that fit behind the head. -/
theorem exists_fits (r : Reading head stretches s) (h : r.before = []) :
    ∃ rest, s = head ++ rest ∧ Fits stretches r.runs rest := by
  refine ⟨weave stretches r.runs ++ r.rest, ?_, r.size, r.single, List.prefix_append _ _⟩
  have heq := r.eq
  rwa [h, List.nil_append, List.append_assoc] at heq

/-- A reading that starts later in a line is one of the line without its first character. -/
theorem exists_behind {c : Char} (r : Reading head stretches (c :: s)) (h : r.before ≠ []) :
    ∃ tail : Reading head stretches s, r = tail.behind c := by
  obtain ⟨before, runs, rest, size, single, eq⟩ := r
  obtain ⟨c', before, rfl⟩ := List.exists_cons_of_ne_nil h
  obtain ⟨rfl, htail⟩ := List.cons.inj eq
  exact ⟨⟨before, runs, rest, size, single, htail⟩, rfl⟩

/-- What is captured behind the head of a line makes the canonical reading of it. -/
theorem exists_canonical_of_after {runs : Runs}
    (h : after head (captures stretches) s = some runs) :
    ∃ r : Reading head stretches s, r.Canonical ∧ r.runs = runs := by
  obtain ⟨rest, rfl, hc⟩ := eq_append_of_after h
  obtain ⟨r, hbefore, rfl⟩ := exists_of_fits head (fits_of_captures hc)
  refine ⟨r, fun other => ?_, rfl⟩
  rw [hbefore, List.length_nil]
  rcases Nat.eq_zero_or_pos other.before.length with hzero | hpos
  · obtain ⟨rest', heq, hfits⟩ := other.exists_fits (List.eq_nil_of_length_eq_zero hzero)
    obtain rfl := List.append_cancel_left heq
    obtain ⟨found, hfound, hlong⟩ := exists_captures hfits
    rw [hc] at hfound
    cases hfound
    exact .inr ⟨hzero.symm, hlong⟩
  · exact .inl hpos

/-- Where nothing is captured behind the head no reading starts. -/
theorem before_ne_nil_of_after (h : after head (captures stretches) s = none)
    (r : Reading head stretches s) : r.before ≠ [] := by
  intro hbefore
  obtain ⟨rest, rfl, hfits⟩ := r.exists_fits hbefore
  obtain ⟨found, hfound, -⟩ := exists_captures hfits
  rw [after_append, hfound] at h
  cases h

theorem Canonical.behind {c : Char} {r : Reading head stretches s} (h : r.Canonical)
    (hlater : ∀ other : Reading head stretches (c :: s), other.before ≠ []) :
    (r.behind c).Canonical := by
  intro other
  obtain ⟨tail, rfl⟩ := other.exists_behind (hlater other)
  exact (h tail).imp Nat.succ_lt_succ fun heq => ⟨congrArg Nat.succ heq.1, heq.2⟩

end Reading

/-- The search finds the canonical reading, unless there is none. -/
theorem canonical_or_isEmpty (head : List Char) (stretches : List (List Char)) (s : List Char) :
    (∃ r : Reading head stretches s, r.Canonical ∧ search head stretches s = some r.runs) ∨
      IsEmpty (Reading head stretches s) ∧ search head stretches s = none := by
  rw [search_eq]
  induction s with
  | nil =>
    rw [firstOccurrence]
    cases h : after head (captures stretches) [] with
    | some runs =>
      obtain ⟨r, hr, rfl⟩ := Reading.exists_canonical_of_after h
      exact .inl ⟨r, hr, rfl⟩
    | none =>
      refine .inr ⟨⟨fun r => r.before_ne_nil_of_after h ?_⟩, rfl⟩
      have heq := r.eq
      simp only [List.nil_eq, List.append_eq_nil_iff] at heq
      exact heq.1.1
  | cons c s ih =>
    rw [firstOccurrence]
    cases h : after head (captures stretches) (c :: s) with
    | some runs =>
      obtain ⟨r, hr, rfl⟩ := Reading.exists_canonical_of_after h
      exact .inl ⟨r, hr, rfl⟩
    | none =>
      obtain ⟨r, hr, hs⟩ | ⟨hempty, hs⟩ := ih
      · exact .inl ⟨r.behind c, hr.behind (Reading.before_ne_nil_of_after h), hs⟩
      · refine .inr ⟨⟨fun r => ?_⟩, hs⟩
        obtain ⟨tail, -⟩ := r.exists_behind (r.before_ne_nil_of_after h)
        exact hempty.false tail

/-- There is no second canonical reading. -/
theorem Reading.Canonical.runs_eq {r r' : Reading head stretches s} (h : r.Canonical)
    (h' : r'.Canonical) : r.runs = r'.runs := by
  have hlong := h r'
  have hlong' := h' r
  have hlength : r.before.length = r'.before.length := by omega
  have heq := r.eq.symm.trans r'.eq
  simp only [List.append_assoc] at heq
  obtain ⟨-, heq⟩ := List.append_inj heq hlength
  have hrest := List.append_cancel_left heq
  refine eq_of_asLong ⟨r.size, r.single, List.prefix_append _ r.rest⟩
    ⟨r'.size, r'.single, hrest ▸ List.prefix_append _ r'.rest⟩ ?_ ?_
  · exact (hlong.resolve_left (by omega)).2
  · exact (hlong'.resolve_left (by omega)).2

/-- What the search finds is the canonical reading. -/
theorem search_eq_some_iff {runs : Runs} :
    search head stretches s = some runs ↔
      ∃ r : Reading head stretches s, r.Canonical ∧ r.runs = runs := by
  obtain ⟨r, hr, hs⟩ | ⟨hempty, hs⟩ := canonical_or_isEmpty head stretches s
  · rw [hs, Option.some.injEq]
    constructor
    · exact fun h => ⟨r, hr, h⟩
    · rintro ⟨r', hr', rfl⟩
      exact hr.runs_eq hr'
  · rw [hs]
    exact iff_of_false nofun fun ⟨r, _⟩ => hempty.false r

end Pattern

/-- The first match of a test is where the test accepts an item and none before it. -/
theorem Match.first_eq_some_iff {test : Item → Option Bindings} {sequence : List Item}
    {m : Match} :
    first test sequence = some m ↔ ∃ item, sequence = m.before ++ item :: m.after ∧
      test item = some m.bindings ∧ ∀ other ∈ m.before, test other = none := by
  refine ⟨eq_append_of_first, ?_⟩
  obtain ⟨before, bindings, after⟩ := m
  rintro ⟨item, rfl, hitem, hnone⟩
  induction before with
  | nil => rw [List.nil_append, first, hitem]
  | cons other before ih =>
    rw [List.forall_mem_cons] at hnone
    rw [List.cons_append, first, hnone.1, ih hitem hnone.2]
    rfl

namespace LinePattern

open Pattern

variable {p : LinePattern} {b bound : Bindings} {text : String}

/-- A way to read a line by the pattern. -/
abbrev Reading (p : LinePattern) (text : String) :=
  Pattern.Reading p.layout.head p.layout.tails text.toList

/-- The bindings have no other values for the placeholders than the runs of the reading. -/
def Agrees (p : LinePattern) (b : Bindings) (r : p.Reading text) : Prop :=
  List.Forall₂ (fun name run => ∀ value, b.get? name = some value → value = String.ofList run)
    p.fields r.runs

/-- The bindings are others with the runs of the reading as values of the placeholders. -/
structure Binds (p : LinePattern) (b : Bindings) (r : p.Reading text) (bound : Bindings) :
    Prop where
  values : List.Forall₂ (fun name run => bound.get? name = some (String.ofList run))
    p.fields r.runs
  kept : ∀ name ∉ p.fields, bound.get? name = b.get? name

/-- An item is a line whose canonical reading agrees with the bindings. -/
def Suits (p : LinePattern) (b : Bindings) (item : Item) : Prop :=
  ∃ text, ∃ r : p.Reading text, item = .line text ∧ r.Canonical ∧ p.Agrees b r

theorem Binds.unique {r : p.Reading text} {other : Bindings} (h : p.Binds b r bound)
    (h' : p.Binds b r other) : bound = other := by
  apply NameMap.ext_get?
  intro name
  by_cases hname : name ∈ p.fields
  · have hsame := List.Forall₂.mp (fun _ _ hv hv' => hv.trans hv'.symm) h.values h'.values
    obtain ⟨-, -, heq⟩ := exists_of_mem_of_forall₂ hsame hname
    exact heq
  · rw [h.kept name hname, h'.kept name hname]

/-- The canonical reading of a line is what the pattern captures. -/
theorem exists_captured {r : p.Reading text} (h : r.Canonical) :
    ∃ captured, p.captured text = some captured ∧ p.Binds ∅ r captured := by
  have hsearch := search_eq_some_iff.2 ⟨r, h, rfl⟩
  obtain ⟨found, hfound⟩ : ∃ found, p.captured text = some found := by
    rw [captured, hsearch]
    exact ⟨_, rfl⟩
  obtain ⟨runs, hs, hruns, hnone⟩ := get?_of_captured hfound
  rw [hsearch] at hs
  cases hs
  exact ⟨found, hfound, hruns, hnone⟩

theorem captured_eq_some_iff {captured : Bindings} :
    p.captured text = some captured ↔
      ∃ r : p.Reading text, r.Canonical ∧ p.Binds ∅ r captured := by
  constructor
  · intro h
    obtain ⟨runs, hs, hruns, hnone⟩ := get?_of_captured h
    obtain ⟨r, hr, rfl⟩ := search_eq_some_iff.1 hs
    exact ⟨r, hr, hruns, hnone⟩
  · rintro ⟨r, hr, hbinds⟩
    obtain ⟨found, hfound, hbinds'⟩ := exists_captured hr
    rw [hfound, hbinds.unique hbinds']

theorem Binds.overlay {r : p.Reading text} {captured : Bindings} (h : p.Binds ∅ r captured)
    (b : Bindings) : p.Binds b r (b.overlay captured) where
  values := by
    refine h.values.imp ?_
    intro name run hv
    rw [Bindings.get?_overlay, hv]
    rfl
  kept name hname := by
    rw [Bindings.get?_overlay, h.kept name hname]
    rfl

/-- Bindings give no name another value than was captured exactly if the reading agrees with
them. -/
theorem Binds.agrees_iff {r : p.Reading text} {captured : Bindings} (h : p.Binds ∅ r captured) :
    p.Agrees b r ↔ ∀ name known value, b.get? name = some known →
      captured.get? name = some value → known = value := by
  constructor
  · intro hall name known value hb hv
    by_cases hname : name ∈ p.fields
    · have hboth := List.Forall₂.mp (fun _ _ => And.intro) hall h.values
      obtain ⟨run, -, hagree, hrun⟩ := exists_of_mem_of_forall₂ hboth hname
      rw [hv] at hrun
      rw [hagree known hb, Option.some.inj hrun]
    · rw [h.kept name hname] at hv
      cases hv
  · intro hall
    refine h.values.imp ?_
    intro name run hv value hb
    exact hall name value _ hb hv

/-- Bindings unify with what was captured exactly if the reading agrees with them, and then bind
what it reads. -/
theorem Binds.unify_eq_some_iff {r : p.Reading text} {captured : Bindings}
    (h : p.Binds ∅ r captured) :
    b.unify captured = some bound ↔ p.Agrees b r ∧ p.Binds b r bound := by
  rw [Bindings.unify_eq_some_iff, h.agrees_iff]
  refine and_congr_right fun _ => ⟨fun heq => heq ▸ h.overlay b, fun hbinds => ?_⟩
  exact hbinds.unique (h.overlay b)

/-- An item is accepted with the bindings extended by the canonical reading, if that agrees. -/
theorem accept_eq_some_iff {item : Item} :
    p.accept b item = some bound ↔
      ∃ text, ∃ r : p.Reading text, item = .line text ∧ r.Canonical ∧ p.Agrees b r ∧
        p.Binds b r bound := by
  constructor
  · intro h
    cases item with
    | line text =>
      obtain ⟨captured, hcaptured, hunify⟩ := Option.bind_eq_some_iff.1 h
      obtain ⟨r, hr, hbinds⟩ := captured_eq_some_iff.1 hcaptured
      exact ⟨text, r, rfl, hr, hbinds.unify_eq_some_iff.1 hunify⟩
    | group items => cases h
    | ref r => cases h
  · rintro ⟨text, r, rfl, hr, hagrees, hbinds⟩
    obtain ⟨captured, hcaptured, hfound⟩ := exists_captured hr
    exact Option.bind_eq_some_iff.2
      ⟨captured, hcaptured, hfound.unify_eq_some_iff.2 ⟨hagrees, hbinds⟩⟩

theorem accept_eq_none_iff {item : Item} : p.accept b item = none ↔ ¬ p.Suits b item := by
  rw [← not_iff_not, not_not, ← ne_eq, Option.ne_none_iff_exists']
  simp only [accept_eq_some_iff]
  constructor
  · rintro ⟨bound, text, r, hitem, hr, hagrees, -⟩
    exact ⟨text, r, hitem, hr, hagrees⟩
  · rintro ⟨text, r, hitem, hr, hagrees⟩
    obtain ⟨captured, -, hfound⟩ := exists_captured hr
    exact ⟨b.overlay captured, text, r, hitem, hr, hagrees, hfound.overlay b⟩

/-- A line pattern matches with the first line whose canonical reading agrees with the bindings, and
binds what it reads there; if there is none it does not match. Every line that can be read at all
has a canonical reading, which is what the pattern captures. -/
theorem matchIn_first_canonical (p : LinePattern) (s : List Item) (b : Bindings) :
    (∀ m, p.matchIn s b = some m ↔ ∃ text, ∃ r : p.Reading text,
      s = m.before ++ .line text :: m.after ∧ r.Canonical ∧ p.Agrees b r ∧
        p.Binds b r m.bindings ∧ ∀ other ∈ m.before, ¬ p.Suits b other) ∧
    (p.matchIn s b = none ↔ ∀ item ∈ s, ¬ p.Suits b item) ∧
    ∀ text, (Nonempty (p.Reading text) ↔
      ∃ captured, p.captured text = some captured ∧
        ∃ r : p.Reading text, r.Canonical ∧ p.Binds ∅ r captured) := by
  refine ⟨fun m => ?_, ?_, fun text => ?_⟩
  · rw [matchIn, Match.first_eq_some_iff]
    simp only [accept_eq_some_iff, accept_eq_none_iff]
    constructor
    · rintro ⟨_, hs, ⟨text, r, rfl, hr, hagrees, hbinds⟩, hnone⟩
      exact ⟨text, r, hs, hr, hagrees, hbinds, hnone⟩
    · rintro ⟨text, r, hs, hr, hagrees, hbinds, hnone⟩
      exact ⟨_, hs, ⟨text, r, rfl, hr, hagrees, hbinds⟩, hnone⟩
  · rw [matchIn, Match.first_eq_none_iff]
    simp only [accept_eq_none_iff]
  · constructor
    · rintro ⟨r⟩
      obtain ⟨r', hr', -⟩ := (canonical_or_isEmpty _ _ _).resolve_right fun h => h.1.false r
      obtain ⟨captured, hcaptured, hbinds⟩ := exists_captured hr'
      exact ⟨captured, hcaptured, r', hr', hbinds⟩
    · rintro ⟨-, -, r, -⟩
      exact ⟨r⟩

/-- The text in front ends as early, and the value as late as it can. -/
example : (⟨"a<X>b", by decide⟩ : LinePattern).captured "xa1a2b3b4" =
    some ⟨[("X", "1a2b3")], by decide⟩ := by
  decide +kernel

end LinePattern

end ScriptFold
