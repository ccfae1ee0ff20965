import Mathlib.Data.List.Forall2
import Mathlib.Data.List.Nodup

/-!
# Steps that may fail

How a step followed by another, or a step for each item of a list, succeeds or fails. A list of steps fails with the
error of its first step that fails, and nothing after that step is looked at.
-/

namespace EntityForge

variable {ε α β : Type}

/-- Two steps succeed when both do. -/
theorem bind_eq_ok_iff {step : Except ε α} {next : α → Except ε β} {b : β} :
    step >>= next = .ok b ↔ ∃ a, step = .ok a ∧ next a = .ok b := by
  cases step with
  | error e => simp [bind, Except.bind]
  | ok a => simp [bind, Except.bind]

/-- Two steps fail when the first fails, or the second does after it. -/
theorem bind_eq_error_iff {step : Except ε α} {next : α → Except ε β} {e : ε} :
    step >>= next = .error e ↔ step = .error e ∨ ∃ a, step = .ok a ∧ next a = .error e := by
  cases step with
  | error e' => simp [bind, Except.bind]
  | ok a => simp [bind, Except.bind]

/-- Replacing the error of a step changes nothing when the step succeeds. -/
theorem mapError_eq_ok_iff {ε' : Type} {f : ε → ε'} {r : Except ε α} {a : α} :
    r.mapError f = .ok a ↔ r = .ok a := by
  cases r with
  | error e => simp [Except.mapError]
  | ok b => simp [Except.mapError]

/-- A result that is kept as an option is there exactly when the step succeeds. -/
theorem toOption_eq_some_iff {r : Except ε α} {a : α} : r.toOption = some a ↔ r = .ok a := by
  cases r with
  | error e => simp [Except.toOption]
  | ok b => simp [Except.toOption]

/-- What can be said of a step that succeeds can be said of its result; `c` is what the step leaves behind. -/
theorem exists_ok_of_summary {γ : Type} (step : Except ε α × γ) (summary : α → β) {b : β}
    (h : step.1.toOption.map summary = some b) : ∃ a c, step = (.ok a, c) ∧ summary a = b := by
  obtain ⟨result, c⟩ := step
  obtain ⟨a, ha, hsummary⟩ := Option.map_eq_some_iff.mp h
  obtain rfl : result = .ok a := toOption_eq_some_iff.mp ha
  exact ⟨a, c, rfl, hsummary⟩

/-- A step for each item succeeds when it does for every item. -/
theorem mapM_eq_ok {f : α → Except ε β} {g : α → β} {as : List α}
    (h : ∀ a ∈ as, f a = .ok (g a)) : as.mapM f = .ok (as.map g) := by
  induction as with
  | nil => rfl
  | cons a rest ih =>
    rw [List.mapM_cons, h a List.mem_cons_self, ih fun b hb => h b (List.mem_cons_of_mem a hb)]
    rfl

theorem exists_mapM_eq_ok {f : α → Except ε β} {as : List α} (h : ∀ a ∈ as, ∃ b, f a = .ok b) :
    ∃ bs, as.mapM f = .ok bs := by
  induction as with
  | nil => exact ⟨[], rfl⟩
  | cons a rest ih =>
    obtain ⟨⟨b, hb⟩, hrest⟩ := List.forall_mem_cons.mp h
    obtain ⟨bs, hbs⟩ := ih hrest
    refine ⟨b :: bs, ?_⟩
    rw [List.mapM_cons, hb, hbs]
    rfl

/-- What is found for each item on its own is found for all items. -/
theorem mapM_eq_some_of_forall₂ {find : α → Option β} {as : List α} {bs : List β}
    (h : List.Forall₂ (fun a b => find a = some b) as bs) : as.mapM find = some bs := by
  induction h with
  | nil => rfl
  | cons hfirst _ ih =>
    rw [List.mapM_cons, hfirst, ih]
    rfl

/-- What is found for all items is found for each item on its own. -/
theorem forall₂_of_mapM_eq_some {find : α → Option β} {as : List α} {bs : List β} (h : as.mapM find = some bs) :
    List.Forall₂ (fun a b => find a = some b) as bs := by
  induction as generalizing bs with
  | nil =>
    cases h
    exact .nil
  | cons a rest ih =>
    rw [List.mapM_cons] at h
    obtain ⟨b, hb, h⟩ := Option.bind_eq_some_iff.mp h
    obtain ⟨others, hothers, h⟩ := Option.bind_eq_some_iff.mp h
    cases h
    exact .cons hb (ih hothers)

/-- The results of a step for each item belong to the items, one by one. -/
theorem forall₂_of_mapM_eq_ok {f : α → Except ε β} {as : List α} {bs : List β}
    (h : as.mapM f = .ok bs) : List.Forall₂ (fun a b => f a = .ok b) as bs := by
  induction as generalizing bs with
  | nil =>
    have hbs : [] = bs := by simpa [pure, Except.pure] using h
    subst hbs
    exact .nil
  | cons a rest ih =>
    rw [List.mapM_cons, bind_eq_ok_iff] at h
    obtain ⟨b, hb, h⟩ := h
    rw [bind_eq_ok_iff] at h
    obtain ⟨others, hothers, h⟩ := h
    have hbs : b :: others = bs := by simpa [pure, Except.pure] using h
    subst hbs
    exact .cons hb (ih hothers)

/-- What is related item by item relates each item on the left to some item on the right. -/
theorem exists_mem_right_of_forall₂ {R : α → β → Prop} {as : List α} {bs : List β}
    (h : List.Forall₂ R as bs) {a : α} (ha : a ∈ as) : ∃ b ∈ bs, R a b := by
  induction h with
  | nil => exact absurd ha (by simp)
  | cons hab _ ih =>
    rcases List.mem_cons.mp ha with rfl | ha
    · exact ⟨_, List.mem_cons_self, hab⟩
    · obtain ⟨b, hb, hr⟩ := ih ha
      exact ⟨b, List.mem_cons_of_mem _ hb, hr⟩

/-- What holds of all items on one side holds, in the terms of the other side, of all items there. -/
theorem forall_mem_iff_of_forall₂ {R : α → β → Prop} {P : α → Prop} {Q : β → Prop} {as : List α}
    {bs : List β} (h : List.Forall₂ R as bs) (hiff : ∀ a b, R a b → (Q b ↔ P a)) :
    (∀ b ∈ bs, Q b) ↔ ∀ a ∈ as, P a := by
  induction h with
  | nil => simp
  | cons hab _ ih => rw [List.forall_mem_cons, List.forall_mem_cons, hiff _ _ hab, ih]

/-- Each item on the left of related lists is paired with one on the right. -/
theorem exists_mem_zip_of_forall₂ {R : α → β → Prop} {as : List α} {bs : List β}
    (h : List.Forall₂ R as bs) {a : α} (ha : a ∈ as) : ∃ b, (a, b) ∈ as.zip bs := by
  rw [← List.map_fst_zip (Nat.le_of_eq h.length_eq)] at ha
  obtain ⟨⟨a, b⟩, hmem, rfl⟩ := List.mem_map.mp ha
  exact ⟨b, hmem⟩

/-- When all keys are different, an item is found under its key. -/
theorem find?_eq_some_iff_of_nodup {key : α → String} {as : List α} (h : (as.map key).Nodup)
    {name : String} {a : α} : as.find? (key · == name) = some a ↔ a ∈ as ∧ key a = name := by
  constructor
  · intro hfound
    exact ⟨List.mem_of_find?_eq_some hfound, by simpa using List.find?_some hfound⟩
  · rintro ⟨ha, rfl⟩
    cases hfound : as.find? (key · == key a) with
    | none =>
      have hnone := List.find?_eq_none.mp hfound a ha
      exact absurd (beq_self_eq_true (key a)) hnone
    | some b =>
      have hb : key b = key a := by simpa using List.find?_some hfound
      rw [List.inj_on_of_nodup_map h (List.mem_of_find?_eq_some hfound) ha hb]

/-- The step fails with `e` at some item, and succeeds at all items before it. -/
def FailsFirst (f : α → Except ε β) (as : List α) (e : ε) : Prop :=
  ∃ before a after, as = before ++ a :: after ∧ (∀ b ∈ before, ∃ r, f b = .ok r) ∧ f a = .error e

theorem FailsFirst.head {f : α → Except ε β} {a : α} {rest : List α} {e : ε}
    (h : f a = .error e) : FailsFirst f (a :: rest) e :=
  ⟨[], a, rest, rfl, by simp, h⟩

theorem FailsFirst.cons {f : α → Except ε β} {a : α} {rest : List α} {r : β} {e : ε}
    (ha : f a = .ok r) (h : FailsFirst f rest e) : FailsFirst f (a :: rest) e := by
  obtain ⟨before, b, after, rfl, hbefore, hb⟩ := h
  refine ⟨a :: before, b, after, rfl, ?_, hb⟩
  intro c hc
  rcases List.mem_cons.mp hc with rfl | hc
  · exact ⟨r, ha⟩
  · exact hbefore c hc

/-- A step for each item fails at the first item where the step fails. -/
theorem failsFirst_of_mapM_eq_error {f : α → Except ε β} {as : List α} {e : ε}
    (h : as.mapM f = .error e) : FailsFirst f as e := by
  induction as with
  | nil => exact absurd h (by simp [pure, Except.pure])
  | cons a rest ih =>
    rw [List.mapM_cons, bind_eq_error_iff] at h
    rcases h with ha | ⟨r, ha, h⟩
    · exact .head ha
    · rw [bind_eq_error_iff] at h
      rcases h with hrest | ⟨_, _, h⟩
      · exact .cons ha (ih hrest)
      · exact absurd h (by simp [pure, Except.pure])

theorem forM_cons_eq {f : α → Except ε Unit} {a : α} {rest : List α} :
    (a :: rest).forM f = f a >>= fun _ => rest.forM f :=
  rfl

/-- A check of each item succeeds when it does for every item. -/
theorem forM_eq_ok_iff {f : α → Except ε Unit} {as : List α} :
    as.forM f = .ok () ↔ ∀ a ∈ as, f a = .ok () := by
  induction as with
  | nil => simp [pure, Except.pure]
  | cons a rest ih =>
    rw [forM_cons_eq, bind_eq_ok_iff, List.forall_mem_cons, ← ih]
    constructor
    · rintro ⟨_, ha, h⟩
      exact ⟨ha, h⟩
    · rintro ⟨ha, h⟩
      exact ⟨(), ha, h⟩

/-- A check of each item fails at the first item that does not pass. -/
theorem failsFirst_of_forM_eq_error {f : α → Except ε Unit} {as : List α} {e : ε}
    (h : as.forM f = .error e) : FailsFirst f as e := by
  induction as with
  | nil => exact absurd h (by simp [pure, Except.pure])
  | cons a rest ih =>
    rw [forM_cons_eq, bind_eq_error_iff] at h
    rcases h with ha | ⟨_, ha, h⟩
    · exact .head ha
    · exact .cons ha (ih h)

end EntityForge
