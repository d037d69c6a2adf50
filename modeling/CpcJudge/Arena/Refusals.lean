import CpcJudge.Arena.Untyped

/-!
# `Arena.Refusals` — when a validator refuses and when it breaks

An entry of a dictionary is kept, refused, or a text of digits that `int` does not read. The loops stop at the first
entry that is not kept, so they break exactly when that one is of the last kind. What they keep is of the documented
type, and kept again as it is.
-/

namespace CpcJudge
namespace Arena
namespace Untyped

/-! ## Dictionaries -/

section Dictionaries
variable {α : Type} {d entries : List (Text × α)} {key : Text} {value : α}

theorem assign_new (h : key ∉ d.map (·.1)) : assign d key value = d ++ [(key, value)] := if_neg h

theorem assign_nodup (h : (d.map (·.1)).Nodup) : ((assign d key value).map (·.1)).Nodup := by
  unfold assign
  split_ifs with hmem
  · have hkeys : (d.map fun entry => if entry.1 = key then (key, value) else entry).map (·.1) = d.map (·.1) := by
      rw [List.map_map]
      refine List.map_congr_left fun entry _ => ?_
      by_cases heq : entry.1 = key
      · simp [heq]
      · simp [heq]
    rwa [hkeys]
  · rw [List.map_append, List.map_singleton]
    exact (List.nodup_append_comm.mp (List.nodup_cons.mpr ⟨hmem, h⟩))

theorem items_nodup : ((items entries).map (·.1)).Nodup := by
  suffices h : ∀ d : List (Text × α), (d.map (·.1)).Nodup →
      ((entries.foldl (fun d entry => assign d entry.1 entry.2) d).map (·.1)).Nodup from h [] List.nodup_nil
  induction entries with
  | nil => exact fun _ h => h
  | cons entry entries ih => exact fun d h => ih _ (assign_nodup h)

/-- An object whose keys are different is its own dictionary. -/
theorem items_of_nodup (h : (entries.map (·.1)).Nodup) : items entries = entries := by
  suffices hfold : ∀ d : List (Text × α), ((d ++ entries).map (·.1)).Nodup →
      entries.foldl (fun d entry => assign d entry.1 entry.2) d = d ++ entries from hfold [] h
  clear h
  induction entries with
  | nil => intro d _; exact (List.append_nil d).symm
  | cons entry entries ih =>
      intro d hd
      have hnew : entry.1 ∉ d.map (·.1) := by
        rw [List.map_append, List.map_cons, List.nodup_middle] at hd
        exact fun hmem => (List.nodup_cons.mp hd).1 (List.mem_append_left _ hmem)
      rw [List.foldl_cons, assign_new hnew, ih _ (by rwa [List.append_assoc]), List.append_assoc]
      rfl

theorem get_eq_none (h : ∀ entry ∈ d, entry.1 ≠ key) : get d key = none := by
  rw [get, List.find?_eq_none.mpr fun entry hentry => by simpa using h entry hentry]
  rfl

/-- The value under a key, in a dictionary with at most one entry for each of some names. -/
theorem get_filterMap {ι : Type} {name : ι → Text} (hname : Function.Injective name) {r : ι → Option (Text × α)}
    (hr : ∀ i e, r i = some e → e.1 = name i) {l : List ι} {i : ι} (hi : i ∈ l) :
    get (l.filterMap r) (name i) = (r i).map (·.2) := by
  induction l with
  | nil => cases hi
  | cons j l ih =>
      cases hj : r j with
      | none =>
          rw [List.filterMap_cons_none hj]
          by_cases hij : i = j
          · subst hij
            rw [hj]
            refine get_eq_none fun e he heq => ?_
            obtain ⟨k, _, hk⟩ := List.mem_filterMap.mp he
            rw [hname ((hr k e hk).symm.trans heq), hj] at hk
            cases hk
          · exact ih ((List.mem_cons.mp hi).resolve_left hij)
      | some e =>
          rw [List.filterMap_cons_some hj, get, List.find?_cons]
          by_cases hij : i = j
          · subst hij
            rw [hr i e hj, decide_eq_true rfl, hj]
          · have hne : e.1 ≠ name i := fun heq => hij (hname ((hr j e hj).symm.trans heq)).symm
            rw [decide_eq_false hne]
            exact ih ((List.mem_cons.mp hi).resolve_left hij)

end Dictionaries

/-! ## The loops -/

section Collect
variable {ι : Type} {clean : ι → Except Raised (Option (Text × Json))} {l before after : List ι} {i : ι}

theorem collect_ok {r : ι → Option (Text × Json)} (hok : ∀ i ∈ l, clean i = .ok (r i))
    (hnodup : ((l.filterMap r).map (·.1)).Nodup) : collect clean l = .ok (l.filterMap r) := by
  suffices hfold : ∀ d : List (Text × Json), ((d ++ l.filterMap r).map (·.1)).Nodup →
      l.foldlM (collectNext clean) d = .ok (d ++ l.filterMap r) from hfold [] hnodup
  clear hnodup
  induction l with
  | nil => intro d _; exact congrArg Except.ok (List.append_nil d).symm
  | cons i l ih =>
      intro d hd
      have ih' := ih fun j hj => hok j (List.mem_cons_of_mem _ hj)
      have hi := hok i List.mem_cons_self
      rw [List.foldlM_cons]
      cases hri : r i with
      | none =>
          rw [List.filterMap_cons_none hri] at hd ⊢
          have hnext : collectNext clean d i = .ok d := by rw [collectNext, hi, hri]; rfl
          rw [hnext]
          exact ih' d hd
      | some e =>
          rw [List.filterMap_cons_some hri] at hd ⊢
          have hnew : e.1 ∉ d.map (·.1) := by
            rw [List.map_append, List.map_cons, List.nodup_middle] at hd
            exact fun hmem => (List.nodup_cons.mp hd).1 (List.mem_append_left _ hmem)
          have hnext : collectNext clean d i = .ok (d ++ [e]) := by
            rw [collectNext, hi, hri]
            exact congrArg Except.ok (assign_new hnew)
          rw [hnext]
          refine (ih' (d ++ [e]) (by rwa [List.append_assoc])).trans ?_
          rw [List.append_assoc]
          rfl

theorem collect_error {raised : Raised} (hbefore : ∀ j ∈ before, ∃ r, clean j = .ok r)
    (hi : clean i = .error raised) : collect clean (before ++ i :: after) = .error raised := by
  suffices hfold : ∀ d : List (Text × Json),
      (before ++ i :: after).foldlM (collectNext clean) d = .error raised from hfold []
  induction before with
  | nil =>
      intro d
      have hnext : collectNext clean d i = .error raised := by rw [collectNext, hi]; rfl
      rw [List.nil_append, List.foldlM_cons, hnext]
      rfl
  | cons j before ih =>
      intro d
      obtain ⟨r, hr⟩ := hbefore j List.mem_cons_self
      have hnext : ∃ d', collectNext clean d j = .ok d' := ⟨_, by rw [collectNext, hr]; rfl⟩
      obtain ⟨d', hd'⟩ := hnext
      rw [List.cons_append, List.foldlM_cons, hd']
      exact ih (fun k hk => hbefore k (List.mem_cons_of_mem _ hk)) d'

theorem all_ok_or_first_error (clean : ι → Except Raised (Option (Text × Json))) (l : List ι) :
    (∀ i ∈ l, ∃ r, clean i = .ok r) ∨ ∃ before i after raised, l = before ++ i :: after ∧
      (∀ j ∈ before, ∃ r, clean j = .ok r) ∧ clean i = .error raised := by
  induction l with
  | nil => exact .inl fun i hi => absurd hi List.not_mem_nil
  | cons i l ih =>
      cases hi : clean i with
      | error raised => exact .inr ⟨[], i, l, raised, rfl, fun j hj => absurd hj List.not_mem_nil, hi⟩
      | ok r =>
          rcases ih with hall | ⟨before, j, after, raised, rfl, hbefore, hj⟩
          · left
            intro j hj
            rcases List.mem_cons.mp hj with rfl | hj
            · exact ⟨r, hi⟩
            · exact hall j hj
          · right
            refine ⟨i :: before, j, after, raised, rfl, fun k hk => ?_, hj⟩
            rcases List.mem_cons.mp hk with rfl | hk
            · exact ⟨r, hi⟩
            · exact hbefore k hk

/-- What is kept of each entry. -/
theorem exists_kept (h : ∀ i ∈ l, ∃ r, clean i = .ok r) :
    ∃ r : ι → Option (Text × Json), ∀ i ∈ l, clean i = .ok (r i) := by
  refine ⟨fun i => (clean i).toOption.join, fun i hi => ?_⟩
  obtain ⟨r, hr⟩ := h i hi
  rw [hr]
  dsimp only
  rw [hr]
  rfl

/-- The keys of what is kept are those of the entries, in their order. -/
theorem keys_sublist {r : ι → Option (Text × Json)} {name : ι → Text}
    (hr : ∀ i ∈ l, ∀ e, r i = some e → e.1 = name i) : List.Sublist ((l.filterMap r).map (·.1)) (l.map name) := by
  induction l with
  | nil => exact .slnil
  | cons i l ih =>
      have ih' := ih fun j hj => hr j (List.mem_cons_of_mem _ hj)
      cases hri : r i with
      | none =>
          rw [List.filterMap_cons_none hri]
          exact ih'.cons _
      | some e =>
          rw [List.filterMap_cons_some hri, List.map_cons, List.map_cons, hr i List.mem_cons_self e hri]
          exact ih'.cons_cons _

/-- An entry that `int` does not read comes after one that is not taken, if there is any. -/
def Guarded (unread takes : ι → Prop) (l : List ι) : Prop :=
  ∀ before i after, l = before ++ i :: after → unread i → ∃ j ∈ before, ¬ takes j

/-- What becomes of an entry. -/
inductive Sorts (clean : ι → Except Raised (Option (Text × Json))) (unread takes : ι → Prop) (i : ι) : Prop where
  | breaks (h : unread i) (hclean : clean i = .error .valueError)
  | refuses (h : ¬ takes i) (hread : ¬ unread i) (message : String)
      (hclean : clean i = .error (.validationError message))
  | keeps (h : takes i) (hread : ¬ unread i) (r : Option (Text × Json)) (hclean : clean i = .ok r)

/-- The loop breaks, is refused, or keeps every entry. -/
theorem collect_cases {unread takes : ι → Prop} (hsorts : ∀ i ∈ l, Sorts clean unread takes i) :
    (¬ Guarded unread takes l ∧ collect clean l = .error .valueError) ∨
      Guarded unread takes l ∧
        ((∃ message, collect clean l = .error (.validationError message)) ∨ ∀ i ∈ l, ∃ r, clean i = .ok r) := by
  have hkept : ∀ i ∈ l, (∃ r, clean i = .ok r) → takes i ∧ ¬ unread i := by
    rintro i hi ⟨r, hr⟩
    cases hsorts i hi with
    | breaks _ hclean => rw [hr] at hclean; cases hclean
    | refuses _ _ _ hclean => rw [hr] at hclean; cases hclean
    | keeps h hread => exact ⟨h, hread⟩
  rcases all_ok_or_first_error clean l with hall | ⟨before, i, after, raised, hl, hbefore, hi⟩
  · refine .inr ⟨fun before i after hl hunread => ?_, .inr hall⟩
    have hmem : i ∈ l := by rw [hl]; simp
    exact absurd hunread (hkept i hmem (hall i hmem)).2
  · have hmem : i ∈ l := by rw [hl]; simp
    have hsub : ∀ j ∈ before, j ∈ l := fun j hj => hl ▸ List.mem_append_left _ hj
    cases hsorts i hmem with
    | breaks hunread hclean =>
        refine .inl ⟨fun hguarded => ?_, hl ▸ collect_error hbefore hclean⟩
        obtain ⟨j, hj, hrefused⟩ := hguarded before i after hl hunread
        exact hrefused (hkept j (hsub j hj) (hbefore j hj)).1
    | refuses hrefused hread message hclean =>
        refine .inr ⟨fun before' u after' hl' hunread => ?_, .inl ⟨message, hl ▸ collect_error hbefore hclean⟩⟩
        -- the entries before `i` are kept, so what is not read comes after it
        rcases List.append_eq_append_iff.mp (hl.symm.trans hl') with ⟨c, hc, hc'⟩ | ⟨c, hc, hc'⟩
        · cases c with
          | nil =>
              obtain ⟨rfl, _⟩ := List.cons.inj hc'
              exact absurd hunread hread
          | cons first c =>
              obtain ⟨rfl, _⟩ := List.cons.inj hc'
              exact ⟨i, by rw [hc]; simp, hrefused⟩
        · cases c with
          | nil =>
              obtain ⟨rfl, _⟩ := List.cons.inj hc'
              exact absurd hunread hread
          | cons first c =>
              obtain ⟨rfl, _⟩ := List.cons.inj hc'
              have hin : u ∈ before := by rw [hc]; simp
              exact absurd hunread (hkept u (hsub u hin) (hbefore u hin)).2
    | keeps _ _ r hclean =>
        rw [hi] at hclean
        cases hclean

end Collect

/-! ## Numbers -/

/-- A text of digits that `int` does not read. -/
def Json.Unread (signed : Bool) (value : Json) : Prop :=
  ∃ s, value = .str s ∧ (digits signed s).isDigit = true ∧ (Text.strip s).isNumeral = false

/-- The number a value stands for: a whole number, or a text of digits. -/
def Json.number? (signed : Bool) : Json → Option ℤ
  | .int n => some n
  | .str s => if (digits signed s).isDigit && (Text.strip s).isNumeral then some (Text.strip s).value else none
  | _ => none

/-- The value stands for a number within the bounds. -/
def Json.Fits (signed : Bool) (bounds : ℤ × ℤ) (value : Json) : Prop :=
  ∃ n, value.number? signed = some n ∧ inBounds bounds n = true

section Numbers
variable {value : Json} {signed : Bool} {bounds : ℤ × ℤ}

theorem not_unread_int {n : ℤ} : ¬ (Json.int n).Unread signed := by
  rintro ⟨_, h, _⟩
  cases h

theorem readDigits_unread (h : value.Unread signed) : value.readDigits signed = .error .valueError := by
  obtain ⟨s, rfl, hdigit, hnumeral⟩ := h
  rw [Json.readDigits, if_pos hdigit, Text.int?, hnumeral]
  rfl

theorem readDigits_number {n : ℤ} (h : value.number? signed = some n) : value.readDigits signed = .ok (.int n) := by
  cases value with
  | int m =>
      cases h
      rfl
  | str s =>
      rw [Json.number?] at h
      split_ifs at h with hread
      obtain ⟨hdigit, hnumeral⟩ := Bool.and_eq_true_iff.mp hread
      cases h
      rw [Json.readDigits, if_pos hdigit, Text.int?, if_pos hnumeral]
  | null => cases h
  | bool b => cases h
  | float q => cases h
  | list keys => cases h
  | dict entries => cases h

/-- What is neither a number nor an unread text stays as it is. -/
theorem readDigits_other (hread : ¬ value.Unread signed) (h : value.number? signed = none) :
    value.readDigits signed = .ok value ∧ ∀ n, value ≠ .int n := by
  cases value with
  | int m => cases h
  | str s =>
      refine ⟨?_, fun n hn => by cases hn⟩
      by_cases hdigit : (digits signed s).isDigit = true
      · have hnumeral : (Text.strip s).isNumeral = true := by
          by_contra hnot
          exact hread ⟨s, rfl, hdigit, Bool.eq_false_iff.mpr hnot⟩
        rw [Json.number?, hdigit, hnumeral] at h
        cases h
      · rw [Json.readDigits, if_neg hdigit]
  | null => exact ⟨rfl, fun n hn => by cases hn⟩
  | bool b => exact ⟨rfl, fun n hn => by cases hn⟩
  | float q => exact ⟨rfl, fun n hn => by cases hn⟩
  | list keys => exact ⟨rfl, fun n hn => by cases hn⟩
  | dict entries => exact ⟨rfl, fun n hn => by cases hn⟩

theorem not_unread_of_number {n : ℤ} (h : value.number? signed = some n) : ¬ value.Unread signed := by
  intro hunread
  have hclash := (readDigits_unread hunread).symm.trans (readDigits_number h)
  cases hclash

/-- What becomes of a value: it breaks the validator, is refused, or is kept as a documented value. -/
inductive Cleans (clean : Json → Except Raised Json) (unread takes documented : Json → Prop) (value : Json) : Prop where
  | breaks (h : unread value) (hclean : clean value = .error .valueError)
  | refuses (h : ¬ takes value) (hread : ¬ unread value) (message : String)
      (hclean : clean value = .error (.validationError message))
  | keeps (h : takes value) (hread : ¬ unread value) (kept : Json) (hclean : clean value = .ok kept)
      (hdocumented : documented kept) (hagain : clean kept = .ok kept)

/-- A whole number within the bounds. -/
def Json.IsWithin (bounds : ℤ × ℤ) (value : Json) : Prop := ∃ n, value = .int n ∧ inBounds bounds n = true

theorem cleanNumber_cleans (invalid outOfBounds : String) : Cleans (cleanNumber signed bounds invalid outOfBounds)
    (·.Unread signed) (·.Fits signed bounds) (·.IsWithin bounds) value := by
  by_cases hunread : value.Unread signed
  · refine .breaks hunread ?_
    rw [cleanNumber, readDigits_unread hunread]
    rfl
  · cases hnumber : value.number? signed with
    | some n =>
        by_cases hin : inBounds bounds n = true
        · refine .keeps ⟨n, hnumber, hin⟩ hunread (.int n) ?_ ⟨n, rfl, hin⟩ (if_pos hin)
          rw [cleanNumber, readDigits_number hnumber]
          exact if_pos hin
        · refine .refuses ?_ hunread outOfBounds ?_
          · rintro ⟨m, hm, hin'⟩
            rw [hnumber] at hm
            cases hm
            exact hin hin'
          · rw [cleanNumber, readDigits_number hnumber]
            exact if_neg hin
    | none =>
        obtain ⟨hother, hint⟩ := readDigits_other hunread hnumber
        refine .refuses ?_ hunread invalid ?_
        · rintro ⟨m, hm, _⟩
          rw [hnumber] at hm
          cases hm
        · rw [cleanNumber, hother]
          cases value with
          | int n => exact absurd rfl (hint n)
          | str s => rfl
          | null => rfl
          | bool b => rfl
          | float q => rfl
          | list keys => rfl
          | dict entries => rfl

end Numbers

/-! ## What the validators promise -/

/-- Documented values go in and come out, and everything else is a `ValidationError`. -/
def Total (clean : Json → Except Raised Json) (Documented : Json → Prop) (data : Json) : Prop :=
  (∃ message, clean data = .error (.validationError message)) ∨
    ∃ value, clean data = .ok value ∧ Documented value ∧ clean value = .ok value

section Promises
variable {clean : Json → Except Raised Json} {unread takes Documented : Json → Prop} {data : Json}

theorem not_total_of_valueError (h : clean data = .error .valueError) : ¬ Total clean Documented data := by
  rintro (⟨message, hclean⟩ | ⟨value, hclean, _⟩)
  · rw [h] at hclean
    cases hclean
  · rw [h] at hclean
    cases hclean

theorem Cleans.total (h : Cleans clean unread takes Documented data) :
    Total clean Documented data ↔ ¬ unread data := by
  cases h with
  | breaks hunread hclean => exact iff_of_false (not_total_of_valueError hclean) (not_not_intro hunread)
  | refuses _ hread message hclean => exact iff_of_true (.inl ⟨message, hclean⟩) hread
  | keeps _ hread kept hclean hdocumented hagain =>
      exact iff_of_true (.inr ⟨kept, hclean, hdocumented, hagain⟩) hread

/-- A validator that does the same with a value and with what is kept. -/
theorem Cleans.congr {clean' : Json → Except Raised Json} (h : Cleans clean unread takes Documented data)
    (hdata : clean' data = clean data) (hkept : ∀ kept, Documented kept → clean' kept = clean kept) :
    Cleans clean' unread takes Documented data := by
  cases h with
  | breaks hunread hclean => exact .breaks hunread (hdata.trans hclean)
  | refuses htakes hread message hclean => exact .refuses htakes hread message (hdata.trans hclean)
  | keeps htakes hread kept hclean hdocumented hagain =>
      exact .keeps htakes hread kept (hdata.trans hclean) hdocumented ((hkept kept hdocumented).trans hagain)

end Promises

/-- Points: a whole number from 1 to 10000. -/
def DocumentedPoints : Json → Prop := Json.IsWithin pointBounds

theorem cleanPoints_cleans {data : Json} :
    Cleans cleanPoints (·.Unread false) (·.Fits false pointBounds) DocumentedPoints data := by
  by_cases hbool : ∃ b, data = .bool b
  · obtain ⟨b, rfl⟩ := hbool
    refine .refuses ?_ ?_ _ rfl
    · rintro ⟨_, h, _⟩
      cases h
    · rintro ⟨_, h, _⟩
      cases h
  · refine Cleans.congr (cleanNumber_cleans "Points must be between 1 and 10000." "Points must be between 1 and 10000.") ?_ ?_
    · cases data with
      | bool b => exact absurd ⟨b, rfl⟩ hbool
      | int n => rfl
      | str s => rfl
      | null => rfl
      | float q => rfl
      | list keys => rfl
      | dict entries => rfl
    · rintro kept ⟨n, rfl, _⟩
      rfl

/-- The length of a series: 1, 3, 5, 7 or 9. -/
def DocumentedBestOf (value : Json) : Prop := ∃ n, value = .int n ∧ n ∈ bestOfChoices

/-- A float that is equal to one of the lengths. -/
def Json.IsFloatChoice (value : Json) : Prop := ∃ n ∈ bestOfChoices, value = .float (some (n : ℚ))

theorem cleanBestOf_ok {value : Json} (hread : value.readDigits false = .ok value) (hbool : ∀ b, value ≠ .bool b)
    (h : bestOfChoices.any value.equalsInt = true) : cleanBestOf value = .ok value := by
  rw [cleanBestOf, hread]
  cases value with
  | bool b => exact absurd rfl (hbool b)
  | int n => exact if_pos h
  | float q => exact if_pos h
  | str s => simp [bestOfChoices, Json.equalsInt] at h
  | null => simp [bestOfChoices, Json.equalsInt] at h
  | list keys => simp [bestOfChoices, Json.equalsInt] at h
  | dict entries => simp [bestOfChoices, Json.equalsInt] at h

theorem cleanBestOf_error {value value' : Json} (hread : value.readDigits false = .ok value')
    (h : (∃ b, value' = .bool b) ∨ bestOfChoices.any value'.equalsInt = false) :
    ∃ message, cleanBestOf value = .error (.validationError message) := by
  rw [cleanBestOf, hread]
  refine ⟨"Best of must be an odd number between 1 and 9.", ?_⟩
  rcases h with ⟨b, rfl⟩ | h
  · rfl
  · cases value' with
    | bool b => rfl
    | int n => exact if_neg (Bool.eq_false_iff.mp h)
    | float q => exact if_neg (Bool.eq_false_iff.mp h)
    | str s => rfl
    | null => rfl
    | list keys => rfl
    | dict entries => rfl

theorem equalsInt_int {n : ℤ} : bestOfChoices.any (Json.int n).equalsInt = true ↔ n ∈ bestOfChoices := by
  simp [Json.equalsInt]

theorem cleanBestOf_int (n : ℤ) : (cleanBestOf (.int n) = .ok (.int n) ∧ n ∈ bestOfChoices) ∨
    ∃ message, cleanBestOf (.int n) = .error (.validationError message) := by
  by_cases h : n ∈ bestOfChoices
  · exact .inl ⟨cleanBestOf_ok rfl (fun b hb => by cases hb) (equalsInt_int.mpr h), h⟩
  · exact .inr (cleanBestOf_error rfl (.inr (Bool.eq_false_iff.mpr (mt equalsInt_int.mp h))))

theorem cleanBestOf_total {data : Json} :
    Total cleanBestOf DocumentedBestOf data ↔ ¬ data.Unread false ∧ ¬ data.IsFloatChoice := by
  constructor
  · intro htotal
    refine ⟨fun hunread => not_total_of_valueError ?_ htotal, ?_⟩
    · rw [cleanBestOf, readDigits_unread hunread]
      rfl
    · rintro ⟨n, hn, rfl⟩
      have hok : cleanBestOf (.float (some (n : ℚ))) = .ok (.float (some (n : ℚ))) :=
        cleanBestOf_ok rfl (fun b hb => by cases hb) (List.any_eq_true.mpr ⟨n, hn, decide_eq_true rfl⟩)
      rcases htotal with ⟨message, hclean⟩ | ⟨value, hclean, ⟨m, rfl, _⟩, _⟩
      · rw [hok] at hclean
        cases hclean
      · rw [hok] at hclean
        cases hclean
  · rintro ⟨hread, hfloat⟩
    cases hnumber : data.number? false with
    | some n =>
        have hsame : cleanBestOf data = cleanBestOf (.int n) := by
          rw [cleanBestOf, readDigits_number hnumber]
          rfl
        rcases cleanBestOf_int n with ⟨hok, hin⟩ | ⟨message, herror⟩
        · exact .inr ⟨.int n, hsame.trans hok, ⟨n, rfl, hin⟩, hok⟩
        · exact .inl ⟨message, hsame.trans herror⟩
    | none =>
        obtain ⟨hother, hint⟩ := readDigits_other hread hnumber
        refine .inl (cleanBestOf_error hother ?_)
        cases data with
        | bool b => exact .inl ⟨b, rfl⟩
        | int n => exact absurd rfl (hint n)
        | float q =>
            right
            refine Bool.eq_false_iff.mpr fun hany => ?_
            obtain ⟨n, hn, heq⟩ := List.any_eq_true.mp hany
            exact hfloat ⟨n, hn, congrArg Json.float (of_decide_eq_true heq)⟩
        | str s => exact .inr rfl
        | null => exact .inr rfl
        | list keys => exact .inr rfl
        | dict entries => exact .inr rfl

/-! ## The rules of a game -/

/-- One of the ways to say yes or no. -/
def Json.IsFlag (value : Json) : Prop := (∃ b, value = .bool b) ∨ value.isOn = true ∨ value.isOff = true

/-- A list of at most forty keys of languages. -/
def Json.IsLanguages (value : Json) : Prop :=
  ∃ keys : List Text, value = .list (keys.map .str) ∧ keys.length ≤ maxLanguages ∧
    ∀ key ∈ keys, 0 < key.length ∧ key.length ≤ 6

/-- The rule is a number, and the value a text of digits that `int` does not read. -/
def RuleName.Unread : RuleName → Json → Prop
  | .number _, value => value.Unread true
  | _, _ => False

/-- The values a rule takes. -/
def RuleName.Takes : RuleName → Json → Prop
  | .number rule, value => value.Fits true rule.bounds
  | .flag _, value => value.IsFlag
  | .languages, value => value.IsLanguages

/-- The documented values of a rule: of its type and within its bounds, the languages sorted. -/
def RuleName.Allows : RuleName → Json → Prop
  | .number rule, value => value.IsWithin rule.bounds
  | .flag _, value => ∃ b, value = .bool b
  | .languages, value => ∃ keys : List Text, value = .list (keys.map .str) ∧ keys.length ≤ maxLanguages ∧
      keys.Pairwise (· < ·) ∧ ∀ key ∈ keys, 0 < key.length ∧ key.length ≤ 6

theorem cleanBool_cleans {rule : FlagRule} {value : Json} :
    Cleans (cleanBool · rule) (fun _ => False) Json.IsFlag (fun kept => ∃ b, kept = .bool b) value := by
  by_cases hbool : ∃ b, value = .bool b
  · obtain ⟨b, rfl⟩ := hbool
    exact .keeps (.inl ⟨b, rfl⟩) not_false (.bool b) rfl ⟨b, rfl⟩ rfl
  · have hclean : cleanBool value rule = if value.isOn then .ok (.bool true) else if value.isOff then .ok (.bool false)
        else .error (.validationError (RuleName.flag rule).invalid) := by
      cases value with
      | bool b => exact absurd ⟨b, rfl⟩ hbool
      | int n => rfl
      | str s => rfl
      | null => rfl
      | float q => rfl
      | list keys => rfl
      | dict entries => rfl
    by_cases hon : value.isOn = true
    · exact .keeps (.inr (.inl hon)) not_false (.bool true) (by rw [hclean, if_pos hon]) ⟨true, rfl⟩ rfl
    · by_cases hoff : value.isOff = true
      · exact .keeps (.inr (.inr hoff)) not_false (.bool false) (by rw [hclean, if_neg hon, if_pos hoff]) ⟨false, rfl⟩ rfl
      · refine .refuses ?_ not_false _ (by rw [hclean, if_neg hon, if_neg hoff])
        rintro (h | h | h)
        · exact hbool h
        · exact hon h
        · exact hoff h

theorem sortedSet_pairwise {keys : List Text} : (sortedSet keys).Pairwise (· < ·) := by
  have : Std.Total (fun x y : Text => x ≤ y) := ⟨le_total⟩
  have : IsTrans Text (fun x y => x ≤ y) := ⟨fun _ _ _ => le_trans⟩
  have hsorted : (sortedSet keys).Pairwise (· ≤ ·) := List.pairwise_insertionSort _ _
  have hnodup : (sortedSet keys).Nodup := (List.perm_insertionSort _ _).nodup_iff.mpr keys.nodup_dedup
  exact (hsorted.and hnodup).imp fun ⟨hle, hne⟩ => lt_of_le_of_ne hle hne

theorem mem_sortedSet {keys : List Text} {key : Text} : key ∈ sortedSet keys ↔ key ∈ keys := by
  rw [sortedSet, List.mem_insertionSort, List.mem_dedup]

theorem length_sortedSet {keys : List Text} : (sortedSet keys).length ≤ keys.length := by
  rw [sortedSet, List.length_insertionSort]
  exact (List.dedup_sublist keys).length_le

theorem sortedSet_self {keys : List Text} (h : keys.Pairwise (· < ·)) : sortedSet keys = keys := by
  have hnodup : keys.Nodup := h.imp fun hlt => ne_of_lt hlt
  rw [sortedSet, hnodup.dedup]
  exact (h.imp fun hlt => le_of_lt hlt).insertionSort_eq

theorem filterMap_str {keys : List Text} : (keys.map Json.str).filterMap Json.str? = keys := by
  induction keys with
  | nil => rfl
  | cons key keys ih =>
      rw [List.map_cons, List.filterMap_cons_some (show Json.str? (.str key) = some key from rfl), ih]

theorem cleanLanguages_ok {keys : List Text} (hlength : keys.length ≤ maxLanguages)
    (hkeys : ∀ key ∈ keys, 0 < key.length ∧ key.length ≤ 6) :
    cleanLanguages (.list (keys.map .str)) = .ok (.list ((sortedSet keys).map .str)) := by
  have hpass : ¬ (maxLanguages < (keys.map Json.str).length || !(keys.map Json.str).all Json.isLanguageKey) = true := by
    have hall : (keys.map Json.str).all Json.isLanguageKey = true := by
      rw [List.all_map, List.all_eq_true]
      intro key hkey
      simpa [Json.isLanguageKey, Json.str?] using hkeys key hkey
    rw [hall, List.length_map]
    simpa using hlength
  rw [cleanLanguages, if_neg hpass, filterMap_str]

theorem isLanguages_of {keys : List Json} (hlength : keys.length ≤ maxLanguages)
    (hkeys : keys.all Json.isLanguageKey = true) : (Json.list keys).IsLanguages := by
  have hstr : ∀ key ∈ keys, ∃ text : Text, key = .str text ∧ 0 < text.length ∧ text.length ≤ 6 := by
    intro key hkey
    have hlanguage := List.all_eq_true.mp hkeys key hkey
    cases key with
    | str text => exact ⟨text, rfl, by simpa [Json.isLanguageKey, Json.str?] using hlanguage⟩
    | null => cases hlanguage
    | bool b => cases hlanguage
    | int n => cases hlanguage
    | float q => cases hlanguage
    | list keys => cases hlanguage
    | dict entries => cases hlanguage
  suffices h : ∃ texts : List Text, keys = texts.map .str ∧ ∀ text ∈ texts, 0 < text.length ∧ text.length ≤ 6 by
    obtain ⟨texts, rfl, htexts⟩ := h
    exact ⟨texts, rfl, by rwa [List.length_map] at hlength, htexts⟩
  clear hlength hkeys
  induction keys with
  | nil => exact ⟨[], rfl, fun text h => absurd h List.not_mem_nil⟩
  | cons key keys ih =>
      obtain ⟨text, rfl, htext⟩ := hstr key List.mem_cons_self
      obtain ⟨texts, rfl, htexts⟩ := ih fun key hkey => hstr key (List.mem_cons_of_mem _ hkey)
      exact ⟨text :: texts, rfl, List.forall_mem_cons.mpr ⟨htext, htexts⟩⟩

theorem cleanLanguages_cleans {value : Json} :
    Cleans cleanLanguages (fun _ => False) Json.IsLanguages (RuleName.languages.Allows) value := by
  by_cases h : value.IsLanguages
  · have htakes := h
    obtain ⟨keys, rfl, hlength, hkeys⟩ := h
    have hlength' := length_sortedSet.trans hlength
    have hkeys' : ∀ key ∈ sortedSet keys, 0 < key.length ∧ key.length ≤ 6 := fun key hkey =>
      hkeys key (mem_sortedSet.mp hkey)
    refine .keeps htakes not_false _ (cleanLanguages_ok hlength hkeys)
      ⟨sortedSet keys, rfl, hlength', sortedSet_pairwise, hkeys'⟩ ?_
    rw [cleanLanguages_ok hlength' hkeys', sortedSet_self sortedSet_pairwise]
  · refine .refuses h not_false RuleName.languages.invalid ?_
    cases value with
    | list keys =>
        rw [cleanLanguages, if_pos]
        by_contra hpass
        rw [Bool.or_eq_true, decide_eq_true_eq, Bool.not_eq_true', not_or, Nat.not_lt, Bool.not_eq_false] at hpass
        exact h (isLanguages_of hpass.1 hpass.2)
    | null => rfl
    | bool b => rfl
    | int n => rfl
    | float q => rfl
    | str s => rfl
    | dict entries => rfl

theorem RuleName.clean_cleans (name : RuleName) (value : Json) :
    Cleans name.clean name.Unread name.Takes name.Allows value := by
  cases name with
  | number rule => exact cleanNumber_cleans _ _
  | flag rule => exact cleanBool_cleans
  | languages => exact cleanLanguages_cleans

/-- An entry of a known rule, with a text that `int` does not read. -/
def UnreadRule (entry : Text × Json) : Prop := ∃ name, RuleName.ofText? entry.1 = some name ∧ name.Unread entry.2

/-- An entry of a rule with a value the rule takes, or of no rule. -/
def TakesRule (entry : Text × Json) : Prop := ∀ name, RuleName.ofText? entry.1 = some name → name.Takes entry.2

/-- The documented rules: known names, each once, with values of their type and within their bounds. -/
def DocumentedRules (value : Json) : Prop :=
  ∃ entries, value = .dict entries ∧ (entries.map (·.1)).Nodup ∧
    ∀ entry ∈ entries, ∃ name, RuleName.ofText? entry.1 = some name ∧ name.Allows entry.2

section Rules
variable {entry e : Text × Json} {name : RuleName}

theorem cleanRule_known (h : RuleName.ofText? entry.1 = some name) :
    cleanRule entry = (name.clean entry.2).map fun value => some (entry.1, value) := by
  rw [cleanRule, h]

theorem cleanRule_sorts : Sorts cleanRule UnreadRule TakesRule entry := by
  cases hname : RuleName.ofText? entry.1 with
  | none =>
      refine .keeps (fun name h => ?_) ?_ none (by rw [cleanRule, hname])
      · rw [hname] at h
        cases h
      · rintro ⟨name, h, _⟩
        rw [hname] at h
        cases h
  | some name =>
      have hread : UnreadRule entry ↔ name.Unread entry.2 := by
        simp [UnreadRule, hname]
      have htakes : TakesRule entry ↔ name.Takes entry.2 := by
        simp [TakesRule, hname]
      have hclean := cleanRule_known hname
      cases name.clean_cleans entry.2 with
      | breaks hunread hvalue => exact .breaks (hread.mpr hunread) (by rw [hclean, hvalue]; rfl)
      | refuses hnot hnread message hvalue =>
          exact .refuses (mt htakes.mp hnot) (mt hread.mp hnread) message (by rw [hclean, hvalue]; rfl)
      | keeps htake hnread kept hvalue =>
          exact .keeps (htakes.mpr htake) (mt hread.mp hnread) (some (entry.1, kept)) (by rw [hclean, hvalue]; rfl)

/-- What is kept of an entry is a documented value under its name, and is kept again. -/
theorem cleanRule_kept (h : cleanRule entry = .ok (some e)) :
    e.1 = entry.1 ∧ (∃ name, RuleName.ofText? e.1 = some name ∧ name.Allows e.2) ∧ cleanRule e = .ok (some e) := by
  cases hname : RuleName.ofText? entry.1 with
  | none =>
      rw [cleanRule, hname] at h
      cases h
  | some name =>
      rw [cleanRule_known hname] at h
      cases name.clean_cleans entry.2 with
      | breaks _ hvalue =>
          rw [hvalue] at h
          cases h
      | refuses _ _ _ hvalue =>
          rw [hvalue] at h
          cases h
      | keeps _ _ kept hvalue hdocumented hagain =>
          rw [hvalue] at h
          cases h
          have hkept : cleanRule (entry.1, kept) = (name.clean kept).map fun value => some (entry.1, value) :=
            cleanRule_known hname
          refine ⟨rfl, ⟨name, hname, hdocumented⟩, ?_⟩
          rw [hkept, hagain]
          rfl

theorem cleanRules_total {data : Json} : Total cleanRules DocumentedRules data ↔
    ∀ entries, data = .dict entries → Guarded UnreadRule TakesRule (items entries) := by
  cases data with
  | null =>
      refine iff_of_true (.inr ⟨.dict [], rfl, ⟨[], rfl, List.nodup_nil, ?_⟩, rfl⟩) fun entries h => by cases h
      exact fun entry h => absurd h List.not_mem_nil
  | bool b => exact iff_of_true (.inl ⟨_, rfl⟩) fun entries h => by cases h
  | int n => exact iff_of_true (.inl ⟨_, rfl⟩) fun entries h => by cases h
  | float q => exact iff_of_true (.inl ⟨_, rfl⟩) fun entries h => by cases h
  | str s => exact iff_of_true (.inl ⟨_, rfl⟩) fun entries h => by cases h
  | list keys => exact iff_of_true (.inl ⟨_, rfl⟩) fun entries h => by cases h
  | dict entries =>
      have hdict : (∀ entries', Json.dict entries = .dict entries' → Guarded UnreadRule TakesRule (items entries')) ↔
          Guarded UnreadRule TakesRule (items entries) :=
        ⟨fun h => h entries rfl, fun h entries' heq => by cases heq; exact h⟩
      rw [hdict]
      rcases collect_cases fun entry (_ : entry ∈ items entries) => cleanRule_sorts with
        ⟨hguard, hcollect⟩ | ⟨hguard, ⟨message, hcollect⟩ | hall⟩
      · refine iff_of_false (not_total_of_valueError ?_) hguard
        rw [cleanRules, hcollect]
        rfl
      · refine iff_of_true (.inl ⟨message, ?_⟩) hguard
        rw [cleanRules, hcollect]
        rfl
      · refine iff_of_true (.inr ?_) hguard
        obtain ⟨r, hr⟩ := exists_kept hall
        have hkept : ∀ e ∈ (items entries).filterMap r, (∃ name, RuleName.ofText? e.1 = some name ∧ name.Allows e.2) ∧
            cleanRule e = .ok (some e) := by
          intro e he
          obtain ⟨entry, hentry, hsome⟩ := List.mem_filterMap.mp he
          exact (cleanRule_kept ((hr entry hentry).trans (congrArg Except.ok hsome))).2
        have hnodup : (((items entries).filterMap r).map (·.1)).Nodup := by
          refine (keys_sublist fun entry hentry e hsome => ?_).nodup items_nodup
          exact (cleanRule_kept ((hr entry hentry).trans (congrArg Except.ok hsome))).1
        have hagain : collect cleanRule ((items entries).filterMap r) = .ok (((items entries).filterMap r).filterMap some) :=
          collect_ok (fun e he => (hkept e he).2) (by rwa [List.filterMap_some])
        refine ⟨.dict ((items entries).filterMap r), ?_, ⟨_, rfl, hnodup, fun e he => (hkept e he).1⟩, ?_⟩
        · rw [cleanRules, collect_ok hr hnodup]
          rfl
        · rw [cleanRules, items_of_nodup hnodup, hagain, List.filterMap_some]
          rfl

end Rules

/-! ## The drawing of problems -/

/-- The key is a number, and the value a text of digits that `int` does not read. -/
def DrawKey.Unread : DrawKey → Json → Prop
  | .autoDraw, _ => False
  | _, value => value.Unread false

/-- The values a key takes: nothing, or anything that is not a number for `auto_draw`, or a number. -/
def DrawKey.Takes : DrawKey → Json → Prop
  | .autoDraw, _ => True
  | _, value => value.isBlank = true ∨ value.Fits false drawBounds

/-- The documented values of a key: nothing, or a boolean or a number within the bounds. -/
def DrawKey.Allows : DrawKey → Json → Prop
  | .autoDraw, value => value = .null ∨ ∃ b, value = .bool b
  | _, value => value = .null ∨ value.IsWithin drawBounds

theorem DrawKey.text_injective : Function.Injective DrawKey.text := by
  intro a b h
  revert h
  cases a <;> cases b <;> decide

theorem not_unread_of_blank {value : Json} {signed : Bool} (h : value.isBlank = true) : ¬ value.Unread signed := by
  rintro ⟨s, rfl, hdigit, _⟩
  have hempty : s = [] := of_decide_eq_true h
  subst hempty
  cases signed <;> cases hdigit

/-- Blank values become nothing, the others are checked as numbers. -/
theorem number_cleans {key : DrawKey} {value : Json} (hkey : key ≠ .autoDraw) :
    Cleans (cleanDrawValue key) (·.Unread false) (fun value => value.isBlank = true ∨ value.Fits false drawBounds)
      (fun value => value = .null ∨ value.IsWithin drawBounds) value := by
  have hclean : ∀ value : Json, value.isBlank = false → cleanDrawValue key value = cleanNumber false drawBounds
      "Problems per game and difficulty go from 1 to 5." "Problems per game and difficulty go from 1 to 5." value := by
    intro value hblank
    cases key with
    | autoDraw => exact absurd rfl hkey
    | drawCount => exact if_neg (Bool.eq_false_iff.mp hblank)
    | levelMin => exact if_neg (Bool.eq_false_iff.mp hblank)
    | levelMax => exact if_neg (Bool.eq_false_iff.mp hblank)
  by_cases hblank : value.isBlank = true
  · exact .keeps (.inl hblank) (not_unread_of_blank hblank) .null (if_pos hblank) (.inl rfl) rfl
  · have hsame := hclean value (Bool.eq_false_iff.mpr hblank)
    have hcleans : Cleans (cleanNumber false drawBounds "Problems per game and difficulty go from 1 to 5."
        "Problems per game and difficulty go from 1 to 5.") (·.Unread false) (·.Fits false drawBounds)
        (·.IsWithin drawBounds) value := cleanNumber_cleans _ _
    cases hcleans with
    | breaks hunread hvalue => exact .breaks hunread (hsame.trans hvalue)
    | refuses hnot hread message hvalue =>
        exact .refuses (fun h => h.elim hblank hnot) hread message (hsame.trans hvalue)
    | keeps htakes hread kept hvalue hdocumented hagain =>
        refine .keeps (.inr htakes) hread kept (hsame.trans hvalue) (.inr hdocumented) ?_
        obtain ⟨n, rfl, _⟩ := hdocumented
        exact (hclean (.int n) rfl).trans hagain

theorem autoDraw_cleans {value : Json} : Cleans (cleanDrawValue .autoDraw) (fun _ => False) (fun _ => True)
    (fun value => value = .null ∨ ∃ b, value = .bool b) value := by
  by_cases hblank : value.isBlank = true
  · exact .keeps trivial not_false .null (if_pos hblank) (.inl rfl) rfl
  · have hbool : ∃ b, cleanDrawValue .autoDraw value = .ok (.bool b) := by
      cases value with
      | bool b => exact ⟨b, if_neg hblank⟩
      | int n => exact ⟨_, if_neg hblank⟩
      | str s => exact ⟨_, if_neg hblank⟩
      | null => exact ⟨_, if_neg hblank⟩
      | float q => exact ⟨_, if_neg hblank⟩
      | list keys => exact ⟨_, if_neg hblank⟩
      | dict entries => exact ⟨_, if_neg hblank⟩
    obtain ⟨b, hb⟩ := hbool
    exact .keeps trivial not_false (.bool b) hb (.inr ⟨b, rfl⟩) rfl

theorem DrawKey.clean_cleans (key : DrawKey) (value : Json) :
    Cleans (cleanDrawValue key) key.Unread key.Takes key.Allows value := by
  cases key with
  | autoDraw => exact autoDraw_cleans
  | drawCount => exact number_cleans (by decide)
  | levelMin => exact number_cleans (by decide)
  | levelMax => exact number_cleans (by decide)

/-- The key is there, with a text that `int` does not read. -/
def UnreadKey (data : List (Text × Json)) (key : DrawKey) : Prop :=
  ∃ value, get data key.text = some value ∧ key.Unread value

/-- The key is not there, or has a value it takes. -/
def TakesKey (data : List (Text × Json)) (key : DrawKey) : Prop :=
  ∀ value, get data key.text = some value → key.Takes value

/-- The documented settings: known keys, each once, with values of their type and within their bounds, the lowest
difficulty not above the highest. -/
def DocumentedDraw (value : Json) : Prop :=
  ∃ entries, value = .dict entries ∧ (entries.map (·.1)).Nodup ∧
    (∀ entry ∈ entries, ∃ key : DrawKey, entry.1 = key.text ∧ key.Allows entry.2) ∧
    ∀ low high, (DrawKey.levelMin.text, .int low) ∈ entries → (DrawKey.levelMax.text, .int high) ∈ entries → low ≤ high

section Draw
variable {data : List (Text × Json)} {key : DrawKey} {e : Text × Json}

theorem cleanDrawKey_some {value : Json} (h : get data key.text = some value) :
    cleanDrawKey data key = (cleanDrawValue key value).map fun value => some (key.text, value) := by
  rw [cleanDrawKey, h]

theorem cleanDrawKey_sorts : Sorts (cleanDrawKey data) (UnreadKey data) (TakesKey data) key := by
  cases hget : get data key.text with
  | none =>
      refine .keeps (fun value h => ?_) ?_ none (by rw [cleanDrawKey, hget])
      · rw [hget] at h
        cases h
      · rintro ⟨value, h, _⟩
        rw [hget] at h
        cases h
  | some value =>
      have hread : UnreadKey data key ↔ key.Unread value := by
        simp [UnreadKey, hget]
      have htakes : TakesKey data key ↔ key.Takes value := by
        simp [TakesKey, hget]
      have hclean := cleanDrawKey_some hget
      cases key.clean_cleans value with
      | breaks hunread hvalue => exact .breaks (hread.mpr hunread) (by rw [hclean, hvalue]; rfl)
      | refuses hnot hnread message hvalue =>
          exact .refuses (mt htakes.mp hnot) (mt hread.mp hnread) message (by rw [hclean, hvalue]; rfl)
      | keeps htake hnread kept hvalue =>
          exact .keeps (htakes.mpr htake) (mt hread.mp hnread) (some (key.text, kept)) (by rw [hclean, hvalue]; rfl)

theorem cleanDrawKey_kept (h : cleanDrawKey data key = .ok (some e)) :
    e.1 = key.text ∧ key.Allows e.2 ∧ cleanDrawValue key e.2 = .ok e.2 := by
  cases hget : get data key.text with
  | none =>
      rw [cleanDrawKey, hget] at h
      cases h
  | some value =>
      rw [cleanDrawKey_some hget] at h
      cases key.clean_cleans value with
      | breaks _ hvalue =>
          rw [hvalue] at h
          cases h
      | refuses _ _ _ hvalue =>
          rw [hvalue] at h
          cases h
      | keeps _ _ kept hvalue hdocumented hagain =>
          rw [hvalue] at h
          cases h
          exact ⟨rfl, hdocumented, hagain⟩

theorem mem_drawKeys : key ∈ drawKeys := by
  cases key <;> decide

/-- A level that is kept is at least one. -/
theorem crossed_iff {cleaned : List (Text × Json)} {low high : ℤ} (hlow : get cleaned DrawKey.levelMin.text = some (.int low))
    (hhigh : get cleaned DrawKey.levelMax.text = some (.int high)) (hlow' : 0 < low) (hhigh' : 0 < high)
    (h : crossed cleaned = false) : low ≤ high := by
  rw [crossed, hlow, hhigh] at h
  by_contra hlt
  rw [Bool.and_eq_false_iff, Bool.and_eq_false_iff] at h
  simp only [decide_eq_false_iff_not, not_not] at h
  omega

theorem cleanDraw_total {data : Json} : Total cleanDraw DocumentedDraw data ↔
    ∀ entries, data = .dict entries → Guarded (UnreadKey (items entries)) (TakesKey (items entries)) drawKeys := by
  cases data with
  | null =>
      refine iff_of_true (.inr ⟨.dict [], rfl, ⟨[], rfl, List.nodup_nil, ?_, ?_⟩, rfl⟩) fun entries h => by cases h
      · exact fun entry h => absurd h List.not_mem_nil
      · exact fun low high h => absurd h List.not_mem_nil
  | bool b => exact iff_of_true (.inl ⟨_, rfl⟩) fun entries h => by cases h
  | int n => exact iff_of_true (.inl ⟨_, rfl⟩) fun entries h => by cases h
  | float q => exact iff_of_true (.inl ⟨_, rfl⟩) fun entries h => by cases h
  | str s => exact iff_of_true (.inl ⟨_, rfl⟩) fun entries h => by cases h
  | list keys => exact iff_of_true (.inl ⟨_, rfl⟩) fun entries h => by cases h
  | dict entries =>
      have hdict : (∀ entries', Json.dict entries = .dict entries' →
          Guarded (UnreadKey (items entries')) (TakesKey (items entries')) drawKeys) ↔
          Guarded (UnreadKey (items entries)) (TakesKey (items entries)) drawKeys :=
        ⟨fun h => h entries rfl, fun h entries' heq => by cases heq; exact h⟩
      rw [hdict]
      have hsorts : ∀ key ∈ drawKeys, Sorts (cleanDrawKey (items entries)) (UnreadKey (items entries))
          (TakesKey (items entries)) key := fun _ _ => cleanDrawKey_sorts
      rcases collect_cases hsorts with
        ⟨hguard, hcollect⟩ | ⟨hguard, ⟨message, hcollect⟩ | hall⟩
      · refine iff_of_false (not_total_of_valueError ?_) hguard
        rw [cleanDraw, hcollect]
        rfl
      · refine iff_of_true (.inl ⟨message, ?_⟩) hguard
        rw [cleanDraw, hcollect]
        rfl
      · refine iff_of_true ?_ hguard
        obtain ⟨r, hr⟩ := exists_kept hall
        have hkept : ∀ key e, r key = some e → e.1 = key.text ∧ key.Allows e.2 ∧ cleanDrawValue key e.2 = .ok e.2 :=
          fun key e hsome => cleanDrawKey_kept ((hr key mem_drawKeys).trans (congrArg Except.ok hsome))
        have hnodup : ((drawKeys.filterMap r).map (·.1)).Nodup := by
          refine (keys_sublist fun key _ e hsome => (hkept key e hsome).1).nodup ?_
          exact List.Nodup.map DrawKey.text_injective (by decide)
        have hget : ∀ key, get (drawKeys.filterMap r) key.text = (r key).map (·.2) := fun key =>
          get_filterMap DrawKey.text_injective (fun key e hsome => (hkept key e hsome).1) mem_drawKeys
        have hfirst : cleanDraw (.dict entries) = if crossed (drawKeys.filterMap r) then
            .error (.validationError "The lowest difficulty cannot be above the highest.")
            else .ok (.dict (drawKeys.filterMap r)) := by
          rw [cleanDraw, collect_ok hr hnodup]
          rfl
        by_cases hcrossed : crossed (drawKeys.filterMap r) = true
        · exact .inl ⟨_, hfirst.trans (if_pos hcrossed)⟩
        · -- what is kept is kept again, key by key
          have hagain : ∀ key ∈ drawKeys, cleanDrawKey (drawKeys.filterMap r) key = .ok (r key) := by
            intro key _
            cases hkey : r key with
            | none =>
                rw [cleanDrawKey, hget key, hkey]
                rfl
            | some e =>
                obtain ⟨hname, _, hvalue⟩ := hkept key e hkey
                have hvalue' : get (drawKeys.filterMap r) key.text = some e.2 := by rw [hget key, hkey]; rfl
                rw [cleanDrawKey_some hvalue', hvalue, ← hname]
                rfl
          have hlevel : ∀ key : DrawKey, key ≠ .autoDraw → ∀ n, (key.text, .int n) ∈ drawKeys.filterMap r →
              get (drawKeys.filterMap r) key.text = some (.int n) ∧ 0 < n := by
            intro key hkey n hmem
            obtain ⟨key', _, hsome⟩ := List.mem_filterMap.mp hmem
            obtain ⟨hname, hallows, _⟩ := hkept key' _ hsome
            obtain rfl := DrawKey.text_injective hname
            refine ⟨by rw [hget key, hsome]; rfl, ?_⟩
            have hwithin : (Json.int n).IsWithin drawBounds := by
              cases key with
              | autoDraw => exact absurd rfl hkey
              | drawCount => exact hallows.resolve_left fun h => by cases h
              | levelMin => exact hallows.resolve_left fun h => by cases h
              | levelMax => exact hallows.resolve_left fun h => by cases h
            obtain ⟨m, hm, hin⟩ := hwithin
            cases hm
            rw [inBounds, Bool.and_eq_true, decide_eq_true_eq] at hin
            exact lt_of_lt_of_le (by decide) hin.1
          refine .inr ⟨_, hfirst.trans (if_neg hcrossed), ⟨_, rfl, hnodup, ?_, ?_⟩, ?_⟩
          · intro e he
            obtain ⟨key, _, hsome⟩ := List.mem_filterMap.mp he
            exact ⟨key, (hkept key e hsome).1, (hkept key e hsome).2.1⟩
          · intro low high hlow hhigh
            obtain ⟨hlow, hlow'⟩ := hlevel .levelMin (by decide) low hlow
            obtain ⟨hhigh, hhigh'⟩ := hlevel .levelMax (by decide) high hhigh
            exact crossed_iff hlow hhigh hlow' hhigh' (Bool.eq_false_iff.mpr hcrossed)
          · rw [cleanDraw, items_of_nodup hnodup, collect_ok hagain hnodup]
            exact if_neg hcrossed

end Draw

/-! ## All four -/

/-- A validator keeps its promise for a value except when it reaches a text of digits that `int` does not read, or finds
a float among the lengths of a series. -/
theorem validators_total (data : Json) :
    (Total cleanRules DocumentedRules data ↔
        ∀ entries, data = .dict entries → Guarded UnreadRule TakesRule (items entries)) ∧
      (Total cleanDraw DocumentedDraw data ↔
        ∀ entries, data = .dict entries → Guarded (UnreadKey (items entries)) (TakesKey (items entries)) drawKeys) ∧
      (Total cleanPoints DocumentedPoints data ↔ ¬ data.Unread false) ∧
      (Total cleanBestOf DocumentedBestOf data ↔ ¬ data.Unread false ∧ ¬ data.IsFloatChoice) :=
  ⟨cleanRules_total, cleanDraw_total, cleanPoints_cleans.total, cleanBestOf_total⟩

/-- A superscript two for the points, and five with two hyphens for the duration. -/
theorem validators_break :
    cleanPoints (.str (.ofString "²")) = .error .valueError ∧
      cleanRules (.dict [(.ofString "duration", .str (.ofString "--5"))]) = .error .valueError ∧
      ¬ ∀ data, Total cleanRules DocumentedRules data ∧ Total cleanDraw DocumentedDraw data ∧
        Total cleanPoints DocumentedPoints data ∧ Total cleanBestOf DocumentedBestOf data := by
  have hpoints : cleanPoints (.str (.ofString "²")) = .error .valueError := by rfl
  refine ⟨hpoints, by rfl, fun htotal => ?_⟩
  exact not_total_of_valueError hpoints (htotal _).2.2.1

end Untyped
end Arena
end CpcJudge
