import Mathlib.Data.List.Flatten
import Mathlib.Data.List.Forall2
import Mathlib.Data.List.Perm.Basic
import Mathlib.Data.List.Rotate

/-!
# Lists related entry by entry, and lists of places

What the library does not say about `List.Forall₂`, about entries that carry their places in a
list, and about lists that begin with a part of themselves.
-/

namespace ScriptFold

variable {α β : Type} {R : α → β → Prop}

theorem exists_of_mem_of_forall₂ {as : List α} {bs : List β} (h : List.Forall₂ R as bs)
    {a : α} (ha : a ∈ as) : ∃ b ∈ bs, R a b := by
  induction h with
  | nil => simp at ha
  | cons hab _ ih =>
    rcases List.mem_cons.1 ha with rfl | ha
    · exact ⟨_, List.mem_cons_self, hab⟩
    · obtain ⟨b, hb, hr⟩ := ih ha
      exact ⟨b, List.mem_cons_of_mem _ hb, hr⟩

theorem forall₂_imp_of_mem {S : α → β → Prop} {as : List α} {bs : List β}
    (h : List.Forall₂ R as bs) (himp : ∀ a ∈ as, ∀ b, R a b → S a b) : List.Forall₂ S as bs := by
  induction h with
  | nil => exact .nil
  | cons hab _ ih =>
    rw [List.forall_mem_cons] at himp
    exact .cons (himp.1 _ hab) (ih himp.2)

theorem forall₂_imp_of_mem_right {S : α → β → Prop} {as : List α} {bs : List β}
    (h : List.Forall₂ R as bs) (himp : ∀ b ∈ bs, ∀ a, R a b → S a b) : List.Forall₂ S as bs :=
  (forall₂_imp_of_mem h.flip himp).flip

theorem map_eq_map_of_forall₂ {γ : Type} {f : α → γ} {g : β → γ} {as : List α} {bs : List β}
    (h : List.Forall₂ (fun a b => f a = g b) as bs) : as.map f = bs.map g := by
  rw [← List.forall₂_eq_eq_eq]
  exact List.forall₂_map_left_iff.2 (List.forall₂_map_right_iff.2 h)

theorem forall₂_flatMap_of_mem {γ : Type} {f : γ → List α} {g : γ → List β} {l : List γ}
    (h : ∀ c ∈ l, List.Forall₂ R (f c) (g c)) : List.Forall₂ R (l.flatMap f) (l.flatMap g) := by
  induction l with
  | nil => exact .nil
  | cons c l ih =>
    rw [List.forall_mem_cons] at h
    exact List.rel_append h.1 (ih h.2)

/-- What is left of a list when entries with no images were taken out has the images of the list. -/
theorem flatMap_eq_of_perm {f : α → List β} {used left l : List α} (hperm : (used ++ left).Perm l)
    (hsub : left.Sublist l) (hused : ∀ a ∈ used, f a = []) : left.flatMap f = l.flatMap f := by
  have himages := hperm.flatMap_right f
  rw [List.flatMap_append, List.flatMap_eq_nil_iff.2 hused, List.nil_append] at himages
  exact (hsub.flatMap f).eq_of_length himages.length_eq

theorem filterMap_eq_of_perm {f : α → Option β} {used left l : List α}
    (hperm : (used ++ left).Perm l) (hsub : left.Sublist l) (hused : ∀ a ∈ used, f a = none) :
    left.filterMap f = l.filterMap f := by
  rw [List.filterMap_eq_flatMap_toList, List.filterMap_eq_flatMap_toList]
  refine flatMap_eq_of_perm hperm hsub fun a ha => ?_
  rw [hused a ha]
  rfl

/-- The first hit in lists put one behind the other is that of the first list with one. -/
theorem findSome?_flatMap_of_mem {γ : Type} {f : α → List β} {g : β → Option γ} {h : α → Option γ}
    {l : List α} (each : ∀ a ∈ l, h a = (f a).findSome? g) :
    (l.flatMap f).findSome? g = l.findSome? h := by
  induction l with
  | nil => rfl
  | cons a l ih =>
    rw [List.forall_mem_cons] at each
    rw [List.flatMap_cons, List.findSome?_append, ih each.2, List.findSome?_cons, each.1]
    cases (f a).findSome? g <;> rfl

theorem flatMap_eq_iff_of_length {γ : Type} {f g : γ → List α} {l : List γ}
    (h : ∀ c ∈ l, (f c).length = (g c).length) :
    l.flatMap f = l.flatMap g ↔ ∀ c ∈ l, f c = g c := by
  constructor
  · intro heq
    induction l with
    | nil => exact List.forall_mem_nil _
    | cons c l ih =>
      rw [List.forall_mem_cons] at h
      rw [List.flatMap_cons, List.flatMap_cons] at heq
      obtain ⟨hc, hl⟩ := List.append_inj heq h.1
      exact List.forall_mem_cons.2 ⟨hc, ih h.2 hl⟩
  · exact List.flatMap_congr

/-- In a list in strict order an entry that goes before another one stands in front of it. -/
theorem sublist_of_pairwise {S : α → α → Prop} (asymm : ∀ a b, S a b → ¬ S b a) {l : List α}
    (hl : l.Pairwise S) {a b : α} (ha : a ∈ l) (hb : b ∈ l) (h : S a b) : [a, b].Sublist l := by
  obtain ⟨before, after, rfl⟩ := List.append_of_mem ha
  rw [List.pairwise_append] at hl
  have hafter : b ∈ after := by
    rcases List.mem_append.1 hb with hb | hb
    · exact absurd (hl.2.2 b hb a List.mem_cons_self) (asymm a b h)
    · rcases List.mem_cons.1 hb with rfl | hb
      · exact absurd h (asymm b b h)
      · exact hb
  exact ((List.singleton_sublist.2 hafter).cons_cons a).trans (List.sublist_append_right before _)

theorem exists_mem_iff_of_forall₂ {P : α → Prop} {Q : β → Prop} {as : List α} {bs : List β}
    (h : List.Forall₂ R as bs) (hiff : ∀ a ∈ as, ∀ b, R a b → (Q b ↔ P a)) :
    (∃ b ∈ bs, Q b) ↔ ∃ a ∈ as, P a := by
  constructor
  · rintro ⟨b, hb, hq⟩
    obtain ⟨a, ha, hr⟩ := exists_of_mem_of_forall₂ h.flip hb
    exact ⟨a, ha, (hiff a ha b hr).1 hq⟩
  · rintro ⟨a, ha, hp⟩
    obtain ⟨b, hb, hr⟩ := exists_of_mem_of_forall₂ h ha
    exact ⟨b, hb, (hiff a ha b hr).2 hp⟩

/-- Pieces that are not empty and have a property, at least one of them, make a list that is not
empty and has it. -/
theorem flatten_of_forall₂ {R : α → List β → Prop} {P : β → Prop} {as : List α}
    {pieces : List (List β)} (h : List.Forall₂ R as pieces) (hne : as ≠ [])
    (each : ∀ a ∈ as, ∀ piece, R a piece → piece ≠ [] ∧ ∀ b ∈ piece, P b) :
    pieces.flatten ≠ [] ∧ ∀ b ∈ pieces.flatten, P b := by
  have hpieces : ∀ piece ∈ pieces, piece ≠ [] ∧ ∀ b ∈ piece, P b := by
    intro piece hp
    obtain ⟨a, ha, hr⟩ := exists_of_mem_of_forall₂ h.flip hp
    exact each a ha piece hr
  constructor
  · obtain ⟨a, rest, rfl⟩ := List.exists_cons_of_ne_nil hne
    obtain ⟨piece, more, -, -, rfl⟩ := List.forall₂_cons_left_iff.1 h
    rw [List.flatten_cons]
    exact List.append_ne_nil_of_left_ne_nil (hpieces piece List.mem_cons_self).1 _
  · intro b hb
    obtain ⟨piece, hp, hb⟩ := List.mem_flatten.1 hb
    exact (hpieces piece hp).2 b hb

theorem exists_mem_flatten_iff {P : β → Prop} {pieces : List (List β)} :
    (∃ b ∈ pieces.flatten, P b) ↔ ∃ piece ∈ pieces, ∃ b ∈ piece, P b := by
  constructor
  · rintro ⟨b, hb, hp⟩
    obtain ⟨piece, hpiece, hb⟩ := List.mem_flatten.1 hb
    exact ⟨piece, hpiece, b, hb, hp⟩
  · rintro ⟨piece, hpiece, b, hb, hp⟩
    exact ⟨b, List.mem_flatten.2 ⟨piece, hpiece, hb⟩, hp⟩

/-! ### Places -/

/-- A pass over entries and their places that gives nothing gives nothing for each entry. -/
theorem exists_eq_nil_of_flatMap_zipIdx {f : α × Nat → List β} {l : List α}
    (h : l.zipIdx.flatMap f = []) {a : α} (ha : a ∈ l) : ∃ i, f (a, i) = [] := by
  rw [← List.zipIdx_map_fst 0 l] at ha
  obtain ⟨⟨a, i⟩, hm, rfl⟩ := List.mem_map.1 ha
  exact ⟨i, List.flatMap_eq_nil_iff.1 h _ hm⟩

/-- A pass over entries and their places that may give something for some entries only, whatever
their places, gives nothing exactly if there are no such entries. -/
theorem flatMap_zipIdx_eq_nil_iff {f : α × Nat → List β} {P : α → Prop} {l : List α}
    (h : ∀ a i, f (a, i) = [] ↔ P a) : l.zipIdx.flatMap f = [] ↔ ∀ a ∈ l, P a := by
  constructor
  · intro hnil a ha
    obtain ⟨i, hi⟩ := exists_eq_nil_of_flatMap_zipIdx hnil ha
    exact (h a i).1 hi
  · intro hall
    refine List.flatMap_eq_nil_iff.2 fun entry hm => (h entry.1 entry.2).2 (hall _ ?_)
    exact List.fst_mem_of_mem_zipIdx hm

theorem pairwise_lt_zipIdx (s : List α) (n : Nat) :
    (s.zipIdx n).Pairwise fun a b => a.2 < b.2 := by
  rw [← List.pairwise_map, List.zipIdx_map_snd]
  exact List.pairwise_lt_range'

/-- Entries in the order of their places are known by which they are. -/
theorem eq_of_perm_of_pairwise_lt {l l' : List (α × Nat)} (h : l.Perm l')
    (hl : l.Pairwise fun a b => a.2 < b.2) (hl' : l'.Pairwise fun a b => a.2 < b.2) : l = l' := by
  refine h.eq_of_pairwise ?_ hl hl'
  intro a b _ _ hab hba
  omega

theorem length_of_zipIdx_eq_append {s : List α} {before after : List (α × Nat)} {a : α} {i : Nat}
    (h : s.zipIdx = before ++ (a, i) :: after) : before.length = i := by
  have hget : s.zipIdx[before.length]? = some (a, i) := by
    rw [h, List.getElem?_append_right le_rfl, Nat.sub_self]
    rfl
  rw [List.getElem?_zipIdx, Option.map_eq_some_iff] at hget
  obtain ⟨_, -, heq⟩ := hget
  cases heq
  omega

/-- Entries in the order of their places divide at each place. -/
theorem exists_eq_append_at {l : List (α × Nat)} (h : l.Pairwise fun a b => a.2 < b.2)
    (start : Nat) :
    ∃ before after, l = before ++ after ∧ (∀ entry ∈ before, entry.2 < start) ∧
      ∀ entry ∈ after, start ≤ entry.2 := by
  induction l with
  | nil => exact ⟨[], [], rfl, List.forall_mem_nil _, List.forall_mem_nil _⟩
  | cons entry rest ih =>
    rw [List.pairwise_cons] at h
    by_cases hlt : entry.2 < start
    · obtain ⟨before, after, rfl, hbefore, hafter⟩ := ih h.2
      exact ⟨entry :: before, after, rfl, List.forall_mem_cons.2 ⟨hlt, hbefore⟩, hafter⟩
    · refine ⟨[], entry :: rest, rfl, List.forall_mem_nil _, ?_⟩
      rw [List.forall_mem_cons]
      refine ⟨by omega, ?_⟩
      intro other hm
      have := h.1 other hm
      omega

/-- No place is taken twice, so a place that is left and not before the first one taken is behind
all of them. -/
theorem le_of_perm_zipIdx {s : List α} {taken left : List (α × Nat)} {start : Nat}
    (hparts : (taken ++ left).Perm s.zipIdx)
    (htaken : taken.map (·.2) = List.range' start taken.length) {entry : α × Nat}
    (hm : entry ∈ left) (hle : start ≤ entry.2) : start + taken.length ≤ entry.2 := by
  by_contra hlt
  have hnodup : ((taken ++ left).map (·.2)).Nodup := by
    rw [(hparts.map _).nodup_iff, List.zipIdx_map_snd]
    exact List.nodup_range'
  rw [List.map_append, htaken, List.nodup_append] at hnodup
  refine hnodup.2.2 entry.2 ?_ entry.2 (List.mem_map_of_mem hm) rfl
  rw [List.mem_range'_1]
  omega

/-- Entries taken from places one behind the other divide the list they were taken from, and what
was left of it, at the first of these places. -/
theorem eq_append_of_perm_zipIdx {s : List α} {taken left : List (α × Nat)} {start : Nat}
    (hparts : (taken ++ left).Perm s.zipIdx) (hleft : left.Sublist s.zipIdx)
    (htaken : taken.map (·.2) = List.range' start taken.length) :
    ∃ before after, left = before ++ after ∧ s.zipIdx = before ++ taken ++ after ∧
      (taken ≠ [] → before.length = start) := by
  have hsorted := (pairwise_lt_zipIdx s 0).sublist hleft
  obtain ⟨before, after, rfl, hbefore, hafter⟩ := exists_eq_append_at hsorted start
  have hplaces : ∀ entry ∈ taken, start ≤ entry.2 ∧ entry.2 < start + taken.length := by
    intro entry hm
    have hrange := List.mem_map_of_mem (f := Prod.snd) hm
    rwa [htaken, List.mem_range'_1] at hrange
  have hwhole : (before ++ (taken ++ after)).Pairwise fun a b => a.2 < b.2 := by
    have htakensorted : taken.Pairwise fun a b => a.2 < b.2 := by
      rw [← List.pairwise_map, htaken]
      exact List.pairwise_lt_range'
    rw [List.pairwise_append] at hsorted
    rw [List.pairwise_append, List.pairwise_append]
    refine ⟨hsorted.1, ⟨htakensorted, hsorted.2.1, ?_⟩, ?_⟩
    · intro a ha b hb
      have hlast := (hplaces a ha).2
      have hbehind := le_of_perm_zipIdx hparts htaken (List.mem_append_right _ hb) (hafter b hb)
      omega
    · intro a ha b hb
      have hfirst := hbefore a ha
      rcases List.mem_append.1 hb with hb | hb
      · have hplace := (hplaces b hb).1
        omega
      · have hplace := hafter b hb
        omega
  have heq : s.zipIdx = before ++ (taken ++ after) := by
    refine eq_of_perm_of_pairwise_lt (hparts.symm.trans ?_) (pairwise_lt_zipIdx s 0) hwhole
    exact List.perm_append_comm_assoc taken before after
  refine ⟨before, after, rfl, by rw [heq, List.append_assoc], ?_⟩
  intro hne
  obtain ⟨⟨a, i⟩, rest, rfl⟩ := List.exists_cons_of_ne_nil hne
  have hfirst : i = start := by
    rw [List.map_cons, List.length_cons, List.range'_succ] at htaken
    exact (List.cons.inj htaken).1
  rw [← hfirst]
  exact length_of_zipIdx_eq_append heq

/-- A list with a part in front of which it may be put again ends with that part turned. -/
theorem append_eq_append_rotate {block part : List α} (h : part <+: block ++ part) :
    block ++ part = part ++ block.rotate part.length := by
  induction part generalizing block with
  | nil => simp
  | cons a part ih =>
    cases block with
    | nil => simp
    | cons b block =>
      rw [List.cons_append, List.cons_prefix_cons] at h
      obtain ⟨rfl, h⟩ := h
      have hturned : block ++ [a] ++ part = part ++ (block ++ [a]).rotate part.length := by
        apply ih
        rwa [List.append_assoc]
      rw [List.append_assoc] at hturned
      rw [List.cons_append, List.length_cons, List.rotate_cons_succ, List.cons_append, ← hturned]
      rfl

end ScriptFold
