import Mathlib.Data.List.Forall2
import Mathlib.Logic.Function.Basic
import Mathlib.Tactic.Common

/-!
# The last writer wins

Several writers share slots.  Each goes through items of its own, in an order
that is not fixed: it writes the value of one item after the other to its slot
and gives up at the first item that has none.  The writers themselves come in
any order, too.  What is in a slot in the end was written last, so in general it
depends on these orders; this file says when it does not.

* `Writers` — what is written where, and that a writer can take its items in
  every order.
* `final` — the slots in the end; `Reordered` — the same writers in another
  order.
* `RaceFree.final_eq_some_iff` — without a race a slot ends up with the value
  that is offered for it.
* `settled_iff` — the end is the same in every order exactly when there is no
  race: all values offered for a slot are the same, and if there are any, some
  writer to it never gives up.
-/

namespace LastWriter

/-- Writers of type `ω` to slots `κ`, with items of type `ι`. -/
structure Writers (ω κ ι : Type) where
  /-- The slot a writer writes to. -/
  slot : ω → κ
  /-- Its items, in the order it takes them. -/
  items : ω → List ι
  /-- The same writer, which takes its items in another order. -/
  Same : ω → ω → Prop
  same_refl : ∀ w, Same w w
  slot_of_same : ∀ {w w'}, Same w w' → slot w' = slot w
  items_of_same : ∀ {w w'}, Same w w' → (items w').Perm (items w)
  /-- A writer can take its items in every order. -/
  exists_same : ∀ w xs, xs.Perm (items w) → ∃ w', Same w w' ∧ items w' = xs

variable {ω κ ι ν : Type}

/-- What a writer leaves in a slot that holds `old`. -/
def leave (value : ι → Option ν) : List ι → Option ν → Option ν
  | [], old => old
  | x :: xs, old =>
    match value x with
    | none => old
    | some v => leave value xs (some v)

namespace Writers

variable (W : Writers ω κ ι) (value : ι → Option ν)

/-- One writer. -/
def write [DecidableEq κ] (slots : κ → Option ν) (w : ω) : κ → Option ν :=
  Function.update slots (W.slot w) (leave value (W.items w) (slots (W.slot w)))

/-- The slots in the end. -/
def final [DecidableEq κ] (ws : List ω) : κ → Option ν := ws.foldl (W.write value) fun _ => none

/-- The same writers, in another order, each with its items in another order. -/
def Reordered (ws ws' : List ω) : Prop := ∃ l, l.Perm ws ∧ List.Forall₂ W.Same l ws'

/-- Some writer has the value `v` for slot `k`. -/
def Offers (ws : List ω) (k : κ) (v : ν) : Prop :=
  ∃ w ∈ ws, W.slot w = k ∧ ∃ x ∈ W.items w, value x = some v

/-- Some writer to slot `k` writes to it, whatever its order. -/
def Keeps (ws : List ω) (k : κ) : Prop :=
  ∃ w ∈ ws, W.slot w = k ∧ W.items w ≠ [] ∧ ∀ x ∈ W.items w, value x ≠ none

/-- No two values are offered for one slot, and a slot for which there is a value
is written to in every order. -/
structure RaceFree (ws : List ω) : Prop where
  unique : ∀ {k v v'}, W.Offers value ws k v → W.Offers value ws k v' → v = v'
  kept : ∀ {k v}, W.Offers value ws k v → W.Keeps value ws k

end Writers

/-! ## Lists in a pointwise relation -/

section Pointwise

variable {α β : Type} {R : α → β → Prop}

theorem exists_mem_right {l : List α} {l' : List β} (h : List.Forall₂ R l l') {b : β}
    (hb : b ∈ l') : ∃ a ∈ l, R a b := by
  induction h with
  | nil => simp at hb
  | @cons a' b' l l' hab _ ih =>
    rcases List.mem_cons.1 hb with rfl | hb
    · exact ⟨a', List.mem_cons_self, hab⟩
    · obtain ⟨a, ha, hR⟩ := ih hb
      exact ⟨a, List.mem_cons_of_mem _ ha, hR⟩

theorem exists_forall₂ {l : List α} (h : ∀ a ∈ l, ∃ b, R a b) : ∃ l', List.Forall₂ R l l' := by
  induction l with
  | nil => exact ⟨[], List.Forall₂.nil⟩
  | cons a l ih =>
    obtain ⟨b, hb⟩ := h a List.mem_cons_self
    obtain ⟨l', hl'⟩ := ih fun a' ha' => h a' (List.mem_cons_of_mem _ ha')
    exact ⟨b :: l', List.Forall₂.cons hb hl'⟩

end Pointwise

/-! ## One writer -/

section Leave

variable {value : ι → Option ν} {xs : List ι} {old : Option ν} {v : ν}

/-- What is left was there before or is the value of an item. -/
theorem leave_eq_some (h : leave value xs old = some v) :
    old = some v ∨ ∃ x ∈ xs, value x = some v := by
  induction xs generalizing old with
  | nil => exact Or.inl h
  | cons x xs ih =>
    unfold leave at h
    cases hx : value x with
    | none =>
      rw [hx] at h
      exact Or.inl h
    | some u =>
      rw [hx] at h
      rcases ih h with hu | ⟨y, hy, hyv⟩
      · exact Or.inr ⟨x, List.mem_cons_self, hx.trans hu⟩
      · exact Or.inr ⟨y, List.mem_cons_of_mem _ hy, hyv⟩

/-- A slot that holds something is never cleared. -/
theorem leave_some_ne_none : leave value xs (some v) ≠ none := by
  induction xs generalizing v with
  | nil => simp [leave]
  | cons x xs ih =>
    unfold leave
    cases value x with
    | none => simp
    | some u => exact ih

theorem leave_ne_none (h : old ≠ none) : leave value xs old ≠ none := by
  obtain ⟨v, rfl⟩ := Option.ne_none_iff_exists'.1 h
  exact leave_some_ne_none

/-- A writer that never gives up writes something. -/
theorem leave_ne_none_of_forall (hne : xs ≠ []) (h : ∀ x ∈ xs, value x ≠ none) :
    leave value xs old ≠ none := by
  obtain ⟨x, xs, rfl⟩ := List.exists_cons_of_ne_nil hne
  obtain ⟨v, hv⟩ := Option.ne_none_iff_exists'.1 (h x List.mem_cons_self)
  simp only [leave, hv]
  exact leave_some_ne_none

/-- A writer that gives up at once changes nothing. -/
theorem leave_missing_first {ys : List ι} (h : ∀ y ∈ ys, value y = none) (hne : xs ≠ [] → ys ≠ []) :
    leave value (ys ++ xs) old = old := by
  cases ys with
  | cons y ys => simp [leave, h y List.mem_cons_self]
  | nil =>
    have hxs : xs = [] := by
      by_contra hx
      exact hne hx rfl
    simp [hxs, leave]

/-- The last item with a value decides, when what follows it has none. -/
theorem leave_append_cons {x : ι} {ys : List ι} (hxs : ∀ y ∈ xs, value y ≠ none)
    (hx : value x = some v) (hys : ∀ y ∈ ys, value y = none) :
    leave value (xs ++ x :: ys) old = some v := by
  induction xs generalizing old with
  | nil =>
    have hrest : leave value (ys ++ []) (some v) = some v := leave_missing_first hys (by simp)
    simpa [leave, hx] using hrest
  | cons y xs ih =>
    obtain ⟨u, hu⟩ := Option.ne_none_iff_exists'.1 (hxs y List.mem_cons_self)
    simp only [List.cons_append, leave, hu]
    exact ih fun z hz => hxs z (List.mem_cons_of_mem _ hz)

end Leave

/-! ## All writers -/

namespace Writers

variable {W : Writers ω κ ι} {value : ι → Option ν} {ws ws' : List ω} {k : κ} {v : ν}

theorem RaceFree.of_offers (h : W.RaceFree value ws)
    (hoffers : ∀ k v, W.Offers value ws' k v ↔ W.Offers value ws k v)
    (hkeeps : ∀ k, W.Keeps value ws k → W.Keeps value ws' k) : W.RaceFree value ws' where
  unique := fun hv hv' => h.unique ((hoffers _ _).1 hv) ((hoffers _ _).1 hv')
  kept := fun hv => hkeeps _ (h.kept ((hoffers _ _).1 hv))

section Final

variable [DecidableEq κ]

theorem write_apply (slots : κ → Option ν) (w : ω) :
    W.write value slots w k =
      if W.slot w = k then leave value (W.items w) (slots k) else slots k := by
  unfold write
  by_cases h : W.slot w = k
  · subst h
    simp
  · simp [h, Function.update_of_ne (Ne.symm h)]

theorem foldl_write_eq_some {slots : κ → Option ν}
    (h : ws.foldl (W.write value) slots k = some v) :
    slots k = some v ∨ W.Offers value ws k v := by
  induction ws generalizing slots with
  | nil => exact Or.inl h
  | cons w ws ih =>
    rcases ih h with hw | ⟨w', hw', hoffer⟩
    · rw [write_apply] at hw
      by_cases hk : W.slot w = k
      · rw [if_pos hk] at hw
        rcases leave_eq_some hw with hs | hitem
        · exact Or.inl hs
        · exact Or.inr ⟨w, List.mem_cons_self, hk, hitem⟩
      · rw [if_neg hk] at hw
        exact Or.inl hw
    · exact Or.inr ⟨w', List.mem_cons_of_mem _ hw', hoffer⟩

theorem foldl_write_ne_none {slots : κ → Option ν} (h : slots k ≠ none ∨ W.Keeps value ws k) :
    ws.foldl (W.write value) slots k ≠ none := by
  induction ws generalizing slots with
  | nil =>
    rcases h with h | ⟨w, hw, -⟩
    · exact h
    · simp at hw
  | cons w ws ih =>
    refine ih ?_
    rw [write_apply]
    rcases h with h | ⟨w', hw', hk, hne, hall⟩
    · by_cases hk : W.slot w = k
      · rw [if_pos hk]
        exact Or.inl (leave_ne_none h)
      · rw [if_neg hk]
        exact Or.inl h
    · rcases List.mem_cons.1 hw' with rfl | hw'
      · rw [if_pos hk]
        exact Or.inl (leave_ne_none_of_forall hne hall)
      · exact Or.inr ⟨w', hw', hk, hne, hall⟩

theorem foldl_write_eq_self {slots : κ → Option ν}
    (h : ∀ w ∈ ws, W.slot w = k → ∀ old, leave value (W.items w) old = old) :
    ws.foldl (W.write value) slots k = slots k := by
  induction ws generalizing slots with
  | nil => rfl
  | cons w ws ih =>
    rw [List.foldl_cons, ih fun w' hw' => h w' (List.mem_cons_of_mem _ hw'), write_apply]
    by_cases hk : W.slot w = k
    · rw [if_pos hk, h w List.mem_cons_self hk]
    · rw [if_neg hk]

/-- **Without a race a slot ends up with the value that is offered for it.** -/
theorem RaceFree.final_eq_some_iff (h : W.RaceFree value ws) :
    W.final value ws k = some v ↔ W.Offers value ws k v := by
  constructor
  · intro hv
    rcases foldl_write_eq_some hv with hnone | hoffer
    · cases hnone
    · exact hoffer
  · intro hoffer
    have hne : W.final value ws k ≠ none := foldl_write_ne_none (Or.inr (h.kept hoffer))
    obtain ⟨u, hu⟩ := Option.ne_none_iff_exists'.1 hne
    rcases foldl_write_eq_some hu with hnone | hoffer'
    · cases hnone
    · exact hu.trans (congrArg some (h.unique hoffer' hoffer))

/-- Without a race only the offers count. -/
theorem RaceFree.final_eq (h : W.RaceFree value ws)
    (hoffers : ∀ k v, W.Offers value ws' k v ↔ W.Offers value ws k v)
    (hkeeps : ∀ k, W.Keeps value ws k → W.Keeps value ws' k) :
    W.final value ws' = W.final value ws := by
  funext k
  refine Option.ext fun v => ?_
  rw [(h.of_offers hoffers hkeeps).final_eq_some_iff, h.final_eq_some_iff, hoffers]

end Final

/-! ## Other orders -/

theorem Reordered.of_perm (h : ws'.Perm ws) : W.Reordered ws ws' :=
  ⟨ws', h, List.forall₂_same.2 fun w _ => W.same_refl w⟩

theorem Reordered.of_left (hperm : ws'.Perm ws) {ws'' : List ω} (h : W.Reordered ws' ws'') :
    W.Reordered ws ws'' := by
  obtain ⟨l, hl, hall⟩ := h
  exact ⟨l, hl.trans hperm, hall⟩

theorem Reordered.mem_right (h : W.Reordered ws ws') {w' : ω} (hw' : w' ∈ ws') :
    ∃ w ∈ ws, W.Same w w' := by
  obtain ⟨l, hperm, hall⟩ := h
  obtain ⟨w, hw, hsame⟩ := exists_mem_right hall hw'
  exact ⟨w, hperm.mem_iff.1 hw, hsame⟩

theorem Reordered.mem_left (h : W.Reordered ws ws') {w : ω} (hw : w ∈ ws) :
    ∃ w' ∈ ws', W.Same w w' := by
  obtain ⟨l, hperm, hall⟩ := h
  exact exists_mem_right hall.flip (hperm.mem_iff.2 hw)

theorem Reordered.offers_iff (h : W.Reordered ws ws') :
    W.Offers value ws' k v ↔ W.Offers value ws k v := by
  constructor
  · rintro ⟨w', hw', hk, x, hx, hv⟩
    obtain ⟨w, hw, hsame⟩ := h.mem_right hw'
    exact ⟨w, hw, (W.slot_of_same hsame).symm.trans hk, x,
      (W.items_of_same hsame).mem_iff.1 hx, hv⟩
  · rintro ⟨w, hw, hk, x, hx, hv⟩
    obtain ⟨w', hw', hsame⟩ := h.mem_left hw
    exact ⟨w', hw', (W.slot_of_same hsame).trans hk, x, (W.items_of_same hsame).mem_iff.2 hx, hv⟩

theorem Reordered.keeps (h : W.Reordered ws ws') (hkeeps : W.Keeps value ws k) :
    W.Keeps value ws' k := by
  obtain ⟨w, hw, hk, hne, hall⟩ := hkeeps
  obtain ⟨w', hw', hsame⟩ := h.mem_left hw
  have hperm := W.items_of_same hsame
  refine ⟨w', hw', (W.slot_of_same hsame).trans hk, ?_, fun x hx => hall x (hperm.mem_iff.1 hx)⟩
  intro hnil
  exact hne (hnil ▸ hperm).nil_eq.symm

theorem RaceFree.of_reordered (h : W.RaceFree value ws) (hre : W.Reordered ws ws') :
    W.RaceFree value ws' :=
  h.of_offers (fun _ _ => hre.offers_iff) fun _ => hre.keeps

theorem RaceFree.final_reordered [DecidableEq κ] (h : W.RaceFree value ws)
    (hre : W.Reordered ws ws') : W.final value ws' = W.final value ws :=
  h.final_eq (fun _ _ => hre.offers_iff) fun _ => hre.keeps

/-- Every value that is offered is what some order ends with: its writer comes
last, and the item last before those without a value. -/
theorem Offers.exists_final [DecidableEq κ] (h : W.Offers value ws k v) :
    ∃ ws', W.Reordered ws ws' ∧ W.final value ws' k = some v := by
  obtain ⟨w, hw, hk, x, hx, hv⟩ := h
  obtain ⟨before, after, rfl⟩ := List.append_of_mem hw
  obtain ⟨xs, ys, hitems⟩ := List.append_of_mem hx
  set p : ι → Bool := fun y => (value y).isSome with hp
  have hperm : ((xs ++ ys).filter p ++ x :: (xs ++ ys).filter fun y => !p y).Perm (W.items w) := by
    rw [hitems]
    have hsplit : (x :: ((xs ++ ys).filter p ++ (xs ++ ys).filter fun y => !p y)).Perm
        (x :: (xs ++ ys)) := (List.filter_append_perm p (xs ++ ys)).cons x
    exact List.perm_middle.trans (hsplit.trans List.perm_middle.symm)
  obtain ⟨w', hsame, hw'⟩ := W.exists_same w _ hperm
  refine ⟨(before ++ after) ++ [w'], ⟨(before ++ after) ++ [w], ?_, ?_⟩, ?_⟩
  · exact (List.perm_append_singleton w _).trans List.perm_middle.symm
  · refine List.rel_append (List.forall₂_same.2 fun u _ => W.same_refl u) ?_
    exact List.Forall₂.cons hsame List.Forall₂.nil
  · have hslot : W.slot w' = k := (W.slot_of_same hsame).trans hk
    rw [final, List.foldl_append, List.foldl_cons, List.foldl_nil, write_apply, if_pos hslot, hw']
    refine leave_append_cons ?_ hv ?_
    · intro y hy
      have := (List.mem_filter.1 hy).2
      simpa [hp, Option.isSome_iff_ne_none] using this
    · intro y hy
      have := (List.mem_filter.1 hy).2
      simpa [hp] using this

/-- A slot that no writer is sure to write to stays empty in some order: every
writer takes the items without a value first. -/
theorem exists_final_eq_none [DecidableEq κ] (h : ¬ W.Keeps value ws k) :
    ∃ ws', W.Reordered ws ws' ∧ W.final value ws' k = none := by
  have hlazy : ∀ w ∈ ws, ∃ w', W.Same w w' ∧
      (W.slot w' = k → ∀ old : Option ν, leave value (W.items w') old = old) := by
    intro w hw
    set p : ι → Bool := fun y => (value y).isNone with hp
    obtain ⟨w', hsame, hw'⟩ := W.exists_same w _ (List.filter_append_perm p (W.items w))
    refine ⟨w', hsame, fun hslot old => ?_⟩
    rw [hw']
    refine leave_missing_first (fun y hy => ?_) (fun hne hnil => ?_)
    · have := (List.mem_filter.1 hy).2
      simpa [hp] using this
    · have hk : W.slot w = k := (W.slot_of_same hsame).symm.trans hslot
      refine h ⟨w, hw, hk, fun hitems => hne (by simp [hitems]), fun x hx hnone => ?_⟩
      have hmem : x ∈ (W.items w).filter p := List.mem_filter.2 ⟨hx, by simp [hp, hnone]⟩
      rw [hnil] at hmem
      simp at hmem
  obtain ⟨ws', hws'⟩ := exists_forall₂ hlazy
  refine ⟨ws', ⟨ws, List.Perm.refl ws, hws'.imp fun _ _ hw => hw.1⟩, ?_⟩
  refine foldl_write_eq_self fun w' hw' => ?_
  obtain ⟨w, -, hw⟩ := exists_mem_right hws' hw'
  exact hw.2

/-- **The slots end up the same in every order exactly when there is no race.** -/
theorem settled_iff [DecidableEq κ] :
    (∃ slots, ∀ ws', W.Reordered ws ws' → W.final value ws' = slots) ↔ W.RaceFree value ws := by
  constructor
  · rintro ⟨slots, hall⟩
    have hoffered : ∀ {k v}, W.Offers value ws k v → slots k = some v := by
      intro k v hoffer
      obtain ⟨ws', hre, hv⟩ := hoffer.exists_final
      rwa [hall ws' hre] at hv
    refine ⟨fun hv hv' => Option.some.inj ((hoffered hv).symm.trans (hoffered hv')), ?_⟩
    intro k v hoffer
    by_contra hkeeps
    obtain ⟨ws', hre, hnone⟩ := exists_final_eq_none hkeeps
    rw [hall ws' hre, hoffered hoffer] at hnone
    cases hnone
  · intro h
    exact ⟨W.final value ws, fun ws' hre => h.final_reordered hre⟩

end Writers

end LastWriter
