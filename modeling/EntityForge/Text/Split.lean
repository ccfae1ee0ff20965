/-!
# Cutting a text at a separator

`beforeLast?` and `afterLast` cut at the last occurrence of a character, `cutAt?` at the first character of a
kind.
-/

namespace EntityForge.Text

/-- What follows the last occurrence of `sep`, or everything when there is none. -/
def afterLastChars (sep : Char) (cs : List Char) : List Char :=
  (cs.reverse.takeWhile (· != sep)).reverse

/-- What precedes the last occurrence of `sep`, if there is one. -/
def beforeLastChars? (sep : Char) (cs : List Char) : Option (List Char) :=
  match cs.reverse.dropWhile (· != sep) with
  | [] => none
  | _ :: before => some before.reverse

/-- What follows the last occurrence of `sep`, or the whole text when there is none. -/
def afterLast (sep : Char) (s : String) : String :=
  String.ofList (afterLastChars sep s.toList)

/-- What precedes the last occurrence of `sep`, if there is one. -/
def beforeLast? (sep : Char) (s : String) : Option String :=
  (beforeLastChars? sep s.toList).map String.ofList

/-- The text before and after the first character that `p` accepts, if there is one. -/
def cutAt? (p : Char → Bool) : List Char → Option (List Char × List Char)
  | [] => none
  | c :: rest =>
    if p c then some ([], rest)
    else (cutAt? p rest).map fun (before, after) => (c :: before, after)

/-- Read from its end, a text without `sep` has no `sep` either. -/
theorem bne_of_mem_reverse {sep : Char} {cs : List Char} (h : sep ∉ cs) : ∀ c ∈ cs.reverse, (c != sep) = true := by
  intro c hc
  rw [bne_iff_ne]
  rintro rfl
  exact h (List.mem_reverse.mp hc)

/-- A text without `sep` is all that follows its last `sep`, also when it stands behind one. -/
theorem afterLastChars_of_not_mem {sep : Char} {cs : List Char} (h : sep ∉ cs) :
    afterLastChars sep cs = cs ∧ ∀ before, afterLastChars sep (before ++ sep :: cs) = cs := by
  have hall := bne_of_mem_reverse h
  constructor
  · have hself : (cs.reverse ++ []).takeWhile (· != sep) = cs.reverse ++ [] :=
      List.takeWhile_append_of_pos hall
    rw [List.append_nil] at hself
    rw [afterLastChars, hself, List.reverse_reverse]
  · intro before
    rw [afterLastChars, List.reverse_append, List.reverse_cons, List.append_assoc,
      List.takeWhile_append_of_pos hall]
    simp

/-- What precedes the last `sep` of a list is what stands before a `sep` with no other behind it. -/
theorem beforeLastChars?_eq_some_iff {sep : Char} {cs before : List Char} :
    beforeLastChars? sep cs = some before ↔ ∃ after, cs = before ++ sep :: after ∧ sep ∉ after := by
  constructor
  · intro h
    have hcut : cs.reverse.takeWhile (· != sep) ++ cs.reverse.dropWhile (· != sep) = cs.reverse :=
      List.takeWhile_append_dropWhile
    -- The last `sep` is the first one that is met from the end.
    cases hdrop : cs.reverse.dropWhile (· != sep) with
    | nil => simp [beforeLastChars?, hdrop] at h
    | cons c rest =>
      have hc : c = sep := by
        have hhead := List.head?_dropWhile_not (· != sep) cs.reverse
        simpa [hdrop] using hhead
      rw [beforeLastChars?, hdrop, Option.some.injEq] at h
      rw [hdrop, hc] at hcut
      refine ⟨(cs.reverse.takeWhile (· != sep)).reverse, ?_, fun hmem => ?_⟩
      · rw [← List.reverse_inj, List.reverse_append, List.reverse_cons, List.reverse_reverse, ← h,
          List.reverse_reverse, List.append_assoc, List.singleton_append]
        exact hcut.symm
      · have hall := List.all_eq_true.mp List.all_takeWhile sep (List.mem_reverse.mp hmem)
        simp at hall
  · rintro ⟨after, rfl, hafter⟩
    rw [beforeLastChars?, List.reverse_append, List.reverse_cons, List.append_assoc,
      List.dropWhile_append_of_pos (bne_of_mem_reverse hafter), List.singleton_append,
      List.dropWhile_cons_of_neg (by simp)]
    simp

/-- What precedes the last `sep` of a text is what stands before a `sep` with no other behind it. -/
theorem beforeLast?_eq_some_iff {sep : Char} {s before : String} :
    beforeLast? sep s = some before
      ↔ ∃ after : String, s = before ++ String.singleton sep ++ after ∧ sep ∉ after.toList := by
  rw [beforeLast?, Option.map_eq_some_iff]
  constructor
  · rintro ⟨cs, hcs, rfl⟩
    obtain ⟨after, hafter, hmem⟩ := beforeLastChars?_eq_some_iff.mp hcs
    refine ⟨String.ofList after, ?_, by simpa using hmem⟩
    rw [← String.toList_inj, hafter]
    simp
  · rintro ⟨after, rfl, hmem⟩
    exact ⟨before.toList, beforeLastChars?_eq_some_iff.mpr ⟨after.toList, by simp, hmem⟩, String.ofList_toList⟩

/-- A cut finds the first accepted character: none stands before it. -/
theorem cutAt?_eq_some {p : Char → Bool} {cs before after : List Char}
    (h : cutAt? p cs = some (before, after)) :
    ∃ c, cs = before ++ c :: after ∧ p c = true ∧ ∀ x ∈ before, p x = false := by
  induction cs generalizing before with
  | nil => simp [cutAt?] at h
  | cons d rest ih =>
    by_cases hd : p d = true
    · simp only [cutAt?, hd, if_true, Option.some.injEq, Prod.mk.injEq] at h
      obtain ⟨rfl, rfl⟩ := h
      exact ⟨d, by simp [hd]⟩
    · simp only [cutAt?, hd, Bool.false_eq_true, if_false, Option.map_eq_some_iff, Prod.mk.injEq] at h
      obtain ⟨⟨b, a⟩, hcut, rfl, rfl⟩ := h
      obtain ⟨c, rfl, hc, hb⟩ := ih hcut
      refine ⟨c, by simp, hc, ?_⟩
      simpa [hd] using hb

/-- The first accepted character is where a cut is made. -/
theorem cutAt?_append {p : Char → Bool} {before after : List Char} {c : Char} (hc : p c = true)
    (hbefore : ∀ x ∈ before, p x = false) : cutAt? p (before ++ c :: after) = some (before, after) := by
  induction before with
  | nil => simp [cutAt?, hc]
  | cons d rest ih =>
    have hd := hbefore d List.mem_cons_self
    rw [List.cons_append, cutAt?, if_neg (by simp [hd]), ih fun x hx => hbefore x (List.mem_cons_of_mem d hx)]
    rfl

/-- There is no cut exactly when no character is accepted. -/
theorem cutAt?_eq_none_iff {p : Char → Bool} {cs : List Char} :
    cutAt? p cs = none ↔ ∀ c ∈ cs, p c = false := by
  induction cs with
  | nil => simp [cutAt?]
  | cons d rest ih => by_cases hd : p d = true <;> simp [cutAt?, hd, ih]

end EntityForge.Text
