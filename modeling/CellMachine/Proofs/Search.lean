import CellMachine.Proofs.Permutations
import CellMachine.Proofs.RoundLimit

/-!
# The search for the best phases

The search tries the orders of the phase values one after the other. What it has found so
far is the first of the highest signals it has seen (`Amplifier.Leads`); a further order
keeps this true (`Amplifier.Leads.next`), so it holds of all orders at the end
(`Amplifier.searchFrom_of_answers`). An order without a signal ends the search with its
error (`Amplifier.searchFrom_of_failure`).

Amplifiers need not return, and a bound on the steps of a run stands for that in the
definitions. `Amplifier.Answers` and `Amplifier.Finds` say what is returned in the end,
whatever the bound, if it is large enough.
-/

set_option autoImplicit false

namespace CellMachine.Amplifier

/-- The amplifier returns, and this is what it returns. -/
def Answers (memory : Memory) (feedback : Bool) (settings : List NetworkSetting)
    (phases : List Cell) (r : Except AmplifierError Cell) : Prop :=
  ∃ least, ∀ fuel, least ≤ fuel → amplify fuel memory phases feedback settings = some r

/-- The search returns, and this is what it returns. -/
def Finds (memory : Memory) (feedback : Bool) (settings : List NetworkSetting)
    (values : List Cell) (r : Except AmplifierError (List Cell × Cell)) : Prop :=
  ∃ least, ∀ fuel, least ≤ fuel → bestPhases fuel memory values feedback settings = some r

section

variable {memory : Memory} {feedback : Bool} {settings : List NetworkSetting}

/-! ## Answers -/

/-- More fuel does not change an answer. -/
theorem amplify_mono {fuel fuel' : Nat} {phases : List Cell} {r : Except AmplifierError Cell}
    (h : amplify fuel memory phases feedback settings = some r) (hle : fuel ≤ fuel') :
    amplify fuel' memory phases feedback settings = some r := by
  rw [amplify] at h ⊢
  cases hb : Network.build .empty memory phases feedback settings with
  | error e =>
    rw [hb] at h
    exact h
  | ok built =>
    obtain ⟨rig, nw⟩ := built
    simp only [hb] at h ⊢
    cases hrun : nw.run fuel (nw.seed rig 0) with
    | none =>
      rw [hrun] at h
      cases h
    | some out =>
      rw [hrun] at h
      rw [show nw.run fuel' (nw.seed rig 0) = some out from Network.runFrom_mono hrun hle hle]
      exact h

theorem answers_of_amplify {fuel : Nat} {phases : List Cell} {r : Except AmplifierError Cell}
    (h : amplify fuel memory phases feedback settings = some r) :
    Answers memory feedback settings phases r :=
  ⟨fuel, fun _ hle => amplify_mono h hle⟩

theorem Answers.amplify_eq {fuel : Nat} {phases : List Cell} {r r' : Except AmplifierError Cell}
    (h : Answers memory feedback settings phases r)
    (h' : amplify fuel memory phases feedback settings = some r') : r' = r := by
  obtain ⟨least, hleast⟩ := h
  have hmore := amplify_mono h' (Nat.le_max_left fuel least)
  rw [hleast _ (Nat.le_max_right fuel least)] at hmore
  exact (Option.some.inj hmore).symm

theorem Answers.unique {phases : List Cell} {r r' : Except AmplifierError Cell}
    (h : Answers memory feedback settings phases r)
    (h' : Answers memory feedback settings phases r') : r = r' := by
  obtain ⟨least, hleast⟩ := h
  exact h'.amplify_eq (hleast least (Nat.le_refl least))

/-- Finitely many amplifiers that return do so with one bound. -/
theorem exists_fuel {lists : List (List Cell)}
    (h : ∀ p ∈ lists, ∃ r, Answers memory feedback settings p r) :
    ∃ fuel, ∀ p ∈ lists, ∀ r, Answers memory feedback settings p r →
      amplify fuel memory p feedback settings = some r := by
  induction lists with
  | nil => exact ⟨0, by simp⟩
  | cons first rest ih =>
    obtain ⟨fuel, hrest⟩ := ih fun p hp => h p (List.mem_cons_of_mem first hp)
    obtain ⟨r, least, hfirst⟩ := h first List.mem_cons_self
    refine ⟨max fuel least, ?_⟩
    intro p hp r' hr'
    rcases List.mem_cons.1 hp with rfl | hp
    · have heq := hfirst (max fuel least) (Nat.le_max_right fuel least)
      rwa [← hr'.amplify_eq heq]
    · exact amplify_mono (hrest p hp r' hr') (Nat.le_max_left fuel least)

/-! ## One order -/

/-- The better of what has been found and what is new. What is new has to be higher. -/
def better (found : Option (List Cell × Cell)) (new : List Cell × Cell) : List Cell × Cell :=
  found.elim new fun old => if old.2 < new.2 then new else old

section Step

variable {fuel : Nat} {found : Option (List Cell × Cell)} {p : List Cell} {rest : List (List Cell)}

theorem searchFrom_of_ok {v : Cell}
    (h : amplify fuel memory p feedback settings = some (.ok v)) :
    searchFrom fuel memory feedback settings found (p :: rest) =
      searchFrom fuel memory feedback settings (some (better found (p, v))) rest := by
  rw [searchFrom, h]
  cases found with
  | none => rfl
  | some old =>
    show searchFrom _ _ _ _ (if old.2 < v then some (p, v) else some old) rest = _
    rw [← apply_ite some]
    rfl

theorem searchFrom_of_error {e : AmplifierError}
    (h : amplify fuel memory p feedback settings = some (.error e)) :
    searchFrom fuel memory feedback settings found (p :: rest) = some (.error e) := by
  rw [searchFrom, h]

theorem searchFrom_of_none (h : amplify fuel memory p feedback settings = none) :
    searchFrom fuel memory feedback settings found (p :: rest) = none := by
  rw [searchFrom, h]

theorem searchFrom_mono {fuel' : Nat} {r : Except AmplifierError (Option (List Cell × Cell))}
    {lists : List (List Cell)} (h : searchFrom fuel memory feedback settings found lists = some r)
    (hle : fuel ≤ fuel') : searchFrom fuel' memory feedback settings found lists = some r := by
  induction lists generalizing found with
  | nil => exact h
  | cons p rest ih =>
    cases hp : amplify fuel memory p feedback settings with
    | none =>
      rw [searchFrom_of_none hp] at h
      cases h
    | some answer =>
      have hp' := amplify_mono hp hle
      cases answer with
      | error e =>
        rw [searchFrom_of_error hp] at h
        rw [searchFrom_of_error hp', h]
      | ok v =>
        rw [searchFrom_of_ok hp] at h
        rw [searchFrom_of_ok hp']
        exact ih h

end Step

/-! ## All orders -/

/-- What has been found leads all orders seen: it is one of them, the signals before it are
lower, and none behind it is higher. -/
structure Leads (memory : Memory) (feedback : Bool) (settings : List NetworkSetting)
    (seen : List (List Cell)) (found : List Cell × Cell) : Prop where
  answers : Answers memory feedback settings found.1 (.ok found.2)
  first : ∃ front back, seen = front ++ found.1 :: back ∧
    (∀ p ∈ front, ∃ w, Answers memory feedback settings p (.ok w) ∧ w < found.2) ∧
    ∀ p ∈ back, ∃ w, Answers memory feedback settings p (.ok w) ∧ w ≤ found.2

section Leads

variable {seen : List (List Cell)} {found : List Cell × Cell}

theorem leads_singleton {p : List Cell} {v : Cell}
    (h : Answers memory feedback settings p (.ok v)) :
    Leads memory feedback settings [p] (p, v) :=
  ⟨h, [], [], rfl, by simp, by simp⟩

theorem Leads.mem (h : Leads memory feedback settings seen found) : found.1 ∈ seen := by
  obtain ⟨front, back, rfl, -, -⟩ := h.first
  simp

/-- No order seen has a higher signal. -/
theorem Leads.exists_le (h : Leads memory feedback settings seen found) {p : List Cell}
    (hp : p ∈ seen) : ∃ w, Answers memory feedback settings p (.ok w) ∧ w ≤ found.2 := by
  obtain ⟨front, back, rfl, hfront, hback⟩ := h.first
  rcases List.mem_append.1 hp with hp | hp
  · obtain ⟨w, hw, hlt⟩ := hfront p hp
    exact ⟨w, hw, Int64.le_of_lt hlt⟩
  · rcases List.mem_cons.1 hp with rfl | hp
    · exact ⟨found.2, h.answers, Int64.le_refl _⟩
    · exact hback p hp

theorem Leads.le (h : Leads memory feedback settings seen found) {p : List Cell} {w : Cell}
    (hp : p ∈ seen) (hw : Answers memory feedback settings p (.ok w)) : w ≤ found.2 := by
  obtain ⟨w', hw', hle⟩ := h.exists_le hp
  rwa [Except.ok.inj (hw.unique hw')]

/-- One more order, and the better one leads. -/
theorem Leads.next (h : Leads memory feedback settings seen found) {p : List Cell} {v : Cell}
    (hp : Answers memory feedback settings p (.ok v)) :
    Leads memory feedback settings (seen ++ [p]) (better (some found) (p, v)) := by
  show Leads _ _ _ _ (if found.2 < v then (p, v) else found)
  by_cases hlt : found.2 < v
  · -- all that was seen is in front of the new one, and lower
    rw [if_pos hlt]
    refine ⟨hp, seen, [], rfl, ?_, by simp⟩
    intro q hq
    obtain ⟨w, hw, hle⟩ := h.exists_le hq
    exact ⟨w, hw, Int64.lt_of_le_of_lt hle hlt⟩
  · -- a tie leaves the older one, so the new one goes behind it
    rw [if_neg hlt]
    obtain ⟨front, back, rfl, hfront, hback⟩ := h.first
    refine ⟨h.answers, front, back ++ [p], by simp, hfront, ?_⟩
    intro q hq
    rcases List.mem_append.1 hq with hq | hq
    · exact hback q hq
    · rw [List.mem_singleton.1 hq]
      exact ⟨v, hp, Int64.not_lt.1 hlt⟩

/-- If all orders have a signal, the search ends with what leads them. -/
theorem searchFrom_of_answers {fuel : Nat} {lists : List (List Cell)}
    (h : Leads memory feedback settings seen found)
    (hall : ∀ p ∈ lists, ∃ v, amplify fuel memory p feedback settings = some (.ok v)) :
    ∃ best, searchFrom fuel memory feedback settings (some found) lists = some (.ok (some best)) ∧
      Leads memory feedback settings (seen ++ lists) best := by
  induction lists generalizing seen found with
  | nil => exact ⟨found, rfl, by rwa [List.append_nil]⟩
  | cons p rest ih =>
    obtain ⟨v, hv⟩ := hall p List.mem_cons_self
    have hnext := h.next (answers_of_amplify hv)
    obtain ⟨best, hbest, hleads⟩ := ih hnext fun q hq => hall q (List.mem_cons_of_mem p hq)
    refine ⟨best, ?_, ?_⟩
    · rw [searchFrom_of_ok hv]
      exact hbest
    · rwa [List.append_assoc] at hleads

end Leads

section Failures

variable {fuel : Nat} {found : Option (List Cell × Cell)} {front back : List (List Cell)}

/-- The first order without a signal ends the search. -/
theorem searchFrom_of_failure {p : List Cell} {e : AmplifierError}
    (hfront : ∀ q ∈ front, ∃ v, amplify fuel memory q feedback settings = some (.ok v))
    (hp : amplify fuel memory p feedback settings = some (.error e)) :
    searchFrom fuel memory feedback settings found (front ++ p :: back) = some (.error e) := by
  induction front generalizing found with
  | nil => exact searchFrom_of_error hp
  | cons q front ih =>
    obtain ⟨v, hv⟩ := hfront q List.mem_cons_self
    rw [List.cons_append, searchFrom_of_ok hv]
    exact ih fun q' hq' => hfront q' (List.mem_cons_of_mem q hq')

/-- A search that returns has run all amplifiers up to the first failure. -/
theorem amplify_of_searchFrom {r : Except AmplifierError (Option (List Cell × Cell))}
    (h : searchFrom fuel memory feedback settings found (front ++ back) = some r)
    (hfront : ∀ q ∈ front, ∀ e, amplify fuel memory q feedback settings ≠ some (.error e)) :
    ∀ q ∈ front, ∃ v, amplify fuel memory q feedback settings = some (.ok v) := by
  induction front generalizing found with
  | nil => simp
  | cons p front ih =>
    rw [List.cons_append] at h
    intro q hq
    cases hp : amplify fuel memory p feedback settings with
    | none =>
      rw [searchFrom_of_none hp] at h
      cases h
    | some answer =>
      cases answer with
      | error e => exact absurd hp (hfront p List.mem_cons_self e)
      | ok v =>
        rcases List.mem_cons.1 hq with rfl | hq
        · exact ⟨v, hp⟩
        · rw [searchFrom_of_ok hp] at h
          exact ih h (fun q' hq' => hfront q' (List.mem_cons_of_mem p hq')) q hq

end Failures

/-! ## The search -/

section Search

variable {values : List Cell} (hne : values ≠ [])

include hne

/-- The search returns what its loop does; only a loop that has found nothing is an error. -/
theorem finds_of_search {fuel : Nat} {found : Except AmplifierError (Option (List Cell × Cell))}
    (h : searchFrom fuel memory feedback settings none (permutations values) = some found) :
    Finds memory feedback settings values
      (found.bind fun best => best.elim (.error .noValues) .ok) := by
  refine ⟨fuel, ?_⟩
  intro fuel' hle
  rw [bestPhases, if_neg (by simpa using hne), searchFrom_mono h hle]
  cases found with
  | error e => rfl
  | ok best =>
    cases best with
    | none => rfl
    | some best => rfl

theorem Finds.exists_search {r : Except AmplifierError (List Cell × Cell)}
    (h : Finds memory feedback settings values r) :
    ∃ fuel r', searchFrom fuel memory feedback settings none (permutations values) = some r' := by
  obtain ⟨fuel, hfinds⟩ := h
  have hbest := hfinds fuel (Nat.le_refl fuel)
  rw [bestPhases, if_neg (by simpa using hne)] at hbest
  cases hs : searchFrom fuel memory feedback settings none (permutations values) with
  | none =>
    rw [hs] at hbest
    cases hbest
  | some r' => exact ⟨fuel, r', hs⟩

/-- If all orders have a signal, the search finds the one that leads them. -/
theorem exists_finds
    (hall : ∀ p, p.Perm values → ∃ v, Answers memory feedback settings p (.ok v)) :
    ∃ best, Finds memory feedback settings values (.ok best) ∧
      Leads memory feedback settings (permutations values) best := by
  have hanswers : ∀ p ∈ permutations values, ∃ v, Answers memory feedback settings p (.ok v) :=
    fun p hp => hall p (mem_permutations.1 hp)
  obtain ⟨fuel, hfuel⟩ := exists_fuel fun p hp => (hanswers p hp).elim fun v hv => ⟨.ok v, hv⟩
  have hok : ∀ p ∈ permutations values,
      ∃ v, amplify fuel memory p feedback settings = some (.ok v) := by
    intro p hp
    obtain ⟨v, hv⟩ := hanswers p hp
    exact ⟨v, hfuel p hp (.ok v) hv⟩
  obtain ⟨first, rest, hsplit⟩ : ∃ first rest, permutations values = [first] ++ rest :=
    List.exists_cons_of_ne_nil (permutations_ne_nil values)
  rw [hsplit] at hok
  obtain ⟨v, hv⟩ := hok first (by simp)
  obtain ⟨best, hbest, hleads⟩ := searchFrom_of_answers (leads_singleton (answers_of_amplify hv))
    fun p hp => hok p (List.mem_append_right [first] hp)
  have hsearch : searchFrom fuel memory feedback settings none (permutations values) =
      some (.ok (some best)) := by
    rw [hsplit, List.singleton_append, searchFrom_of_ok hv]
    exact hbest
  rw [hsplit]
  exact ⟨best, finds_of_search hne hsearch, hleads⟩

/-- The first failure among the orders, if the orders before it return. -/
theorem finds_failure {front back : List (List Cell)} {first : List Cell} {e : AmplifierError}
    (hlists : permutations values = front ++ first :: back)
    (hfront : ∀ p ∈ front, ∃ v, Answers memory feedback settings p (.ok v))
    (hfirst : Answers memory feedback settings first (.error e)) :
    Finds memory feedback settings values (.error e) := by
  have hreturn : ∀ p ∈ first :: front, ∃ r, Answers memory feedback settings p r := by
    intro p hp
    rcases List.mem_cons.1 hp with rfl | hp
    · exact ⟨.error e, hfirst⟩
    · exact (hfront p hp).elim fun v hv => ⟨.ok v, hv⟩
  obtain ⟨fuel, hfuel⟩ := exists_fuel hreturn
  have hsearch : searchFrom fuel memory feedback settings none (permutations values) =
      some (.error e) := by
    rw [hlists]
    apply searchFrom_of_failure
    · intro p hp
      obtain ⟨v, hv⟩ := hfront p hp
      exact ⟨v, hfuel p (List.mem_cons_of_mem first hp) (.ok v) hv⟩
    · exact hfuel first List.mem_cons_self (.error e) hfirst
  exact finds_of_search hne hsearch

/-- A search that returns has an answer for each order before the first failure. -/
theorem Finds.exists_answer {r : Except AmplifierError (List Cell × Cell)}
    {front back : List (List Cell)} (h : Finds memory feedback settings values r)
    (hlists : permutations values = front ++ back)
    (hfront : ∀ p ∈ front, ∀ e, ¬ Answers memory feedback settings p (.error e)) :
    ∀ p ∈ front, ∃ v, Answers memory feedback settings p (.ok v) := by
  obtain ⟨fuel, r', hsearch⟩ := h.exists_search hne
  rw [hlists] at hsearch
  intro p hp
  obtain ⟨v, hv⟩ := amplify_of_searchFrom hsearch
    (fun q hq e he => hfront q hq e (answers_of_amplify he)) p hp
  exact ⟨v, answers_of_amplify hv⟩

end Search

end

/-- If all orders of the values have a signal, the search finds an order with the highest,
the first of these orders in the order of the search, and its signal; so the signal found
does not depend on the order in which the values are given. If some order fails, there is a
first that does, and the search ends with its error and nothing else, unless an order before
it does not return: then the search does not either. -/
theorem bestPhases_maximum (memory : Memory) (feedback : Bool) (settings : List NetworkSetting)
    {values : List Cell} (hne : values ≠ []) :
    ((∀ p, p.Perm values → ∃ v, Answers memory feedback settings p (.ok v)) →
      ∃ best v, Finds memory feedback settings values (.ok (best, v)) ∧ best.Perm values ∧
        Answers memory feedback settings best (.ok v) ∧
        (∀ p w, p.Perm values → Answers memory feedback settings p (.ok w) → w ≤ v) ∧
        (∃ front back, permutations values = front ++ best :: back ∧
          ∀ p ∈ front, ∀ w, Answers memory feedback settings p (.ok w) → w < v) ∧
        ∀ values', values'.Perm values →
          ∃ best', Finds memory feedback settings values' (.ok (best', v))) ∧
    ((∃ p e, p.Perm values ∧ Answers memory feedback settings p (.error e)) →
      ∃ front first back e, permutations values = front ++ first :: back ∧
        Answers memory feedback settings first (.error e) ∧
        (∀ p ∈ front, ∀ e', ¬ Answers memory feedback settings p (.error e')) ∧
        ((∀ p ∈ front, ∃ r, Answers memory feedback settings p r) →
          Finds memory feedback settings values (.error e)) ∧
        ((∃ p ∈ front, ∀ r, ¬ Answers memory feedback settings p r) →
          ∀ r, ¬ Finds memory feedback settings values r)) := by
  constructor
  · intro hall
    obtain ⟨best, hfinds, hleads⟩ := exists_finds hne hall
    have hmax : ∀ p w, p.Perm values → Answers memory feedback settings p (.ok w) → w ≤ best.2 :=
      fun p w hp hw => hleads.le (mem_permutations.2 hp) hw
    refine ⟨best.1, best.2, hfinds, mem_permutations.1 hleads.mem, hleads.answers, hmax, ?_, ?_⟩
    · obtain ⟨front, back, hsplit, hfront, -⟩ := hleads.first
      refine ⟨front, back, hsplit, ?_⟩
      intro p hp w hw
      obtain ⟨w', hw', hlt⟩ := hfront p hp
      rwa [Except.ok.inj (hw.unique hw')]
    · -- each of the two signals is the signal of an order that the other search has seen
      intro values' hperm
      have hne' : values' ≠ [] := by
        rintro rfl
        exact hne hperm.nil_eq.symm
      obtain ⟨best', hfinds', hleads'⟩ :=
        exists_finds hne' fun p hp => hall p (hp.trans hperm)
      have hbest' : best'.1.Perm values := (mem_permutations.1 hleads'.mem).trans hperm
      have hbest : best.1.Perm values' := (mem_permutations.1 hleads.mem).trans hperm.symm
      have hle : best'.2 ≤ best.2 := hmax best'.1 best'.2 hbest' hleads'.answers
      have hge : best.2 ≤ best'.2 := hleads'.le (mem_permutations.2 hbest) hleads.answers
      exact ⟨best'.1, Int64.le_antisymm hge hle ▸ hfinds'⟩
  · rintro ⟨p, e, hp, hfail⟩
    classical
    obtain ⟨first, hfirst⟩ : ∃ first, (permutations values).find?
        (fun q => decide (∃ e, Answers memory feedback settings q (.error e))) = some first := by
      apply Option.isSome_iff_exists.1
      rw [List.find?_isSome]
      exact ⟨p, mem_permutations.2 hp, by simpa using ⟨e, hfail⟩⟩
    obtain ⟨hfails, front, back, hsplit, hfront⟩ := List.find?_eq_some_iff_append.1 hfirst
    obtain ⟨e₀, he₀⟩ := of_decide_eq_true hfails
    have hnone : ∀ p ∈ front, ∀ e', ¬ Answers memory feedback settings p (.error e') := by
      intro q hq e' he'
      have hno := hfront q hq
      simp only [Bool.not_eq_eq_eq_not, Bool.not_true, decide_eq_false_iff_not] at hno
      exact hno ⟨e', he'⟩
    refine ⟨front, first, back, e₀, hsplit, he₀, hnone, ?_, ?_⟩
    · intro hreturn
      refine finds_failure hne hsplit ?_ he₀
      intro q hq
      obtain ⟨answer, hanswer⟩ := hreturn q hq
      cases answer with
      | error e' => exact absurd hanswer (hnone q hq e')
      | ok v => exact ⟨v, hanswer⟩
    · rintro ⟨q, hq, hnever⟩ r hfinds
      obtain ⟨v, hv⟩ := hfinds.exists_answer hne hsplit hnone q hq
      exact hnever (.ok v) hv

/-- Adds its phase to twice the signal. -/
def doubler : Memory :=
  ⟨#[3, 0, 3, 1, 102, 2, 1, 1, 1, 0, 1, 0, 4, 0, 99]⟩

/-- Adds its phase to the signal and then executes the sum. -/
def executor : Memory :=
  ⟨#[3, 0, 3, 1, 1, 0, 1, 10, 4, 10, 99]⟩

theorem permutations_pair (x y : Cell) : permutations [x, y] = [[x, y], [y, x]] :=
  permutations_eq [x, y]

/-- The second order of the phases has the higher signal, which is negative; and an order
that fails behind one that does not. -/
theorem doubler_search :
    Finds doubler false [] [-2, -1] (.ok ([-1, -2], -4)) ∧
      (∃ best, Finds doubler false [] [-1, -2] (.ok (best, -4))) ∧
      Finds executor false [] [99, 0]
        (.error (.run [0, 99] (.machine 0 ⟨"A", .opcode 10 0⟩))) := by
  have hlow : Answers doubler false [] [-2, -1] (.ok (-5)) :=
    answers_of_amplify (show amplify 14 doubler [-2, -1] false [] = _ from rfl)
  have hhigh : Answers doubler false [] [-1, -2] (.ok (-4)) :=
    answers_of_amplify (show amplify 14 doubler [-1, -2] false [] = _ from rfl)
  have horders : ∀ {x y : Cell} {p : List Cell}, p.Perm [x, y] → p = [x, y] ∨ p = [y, x] := by
    intro x y p hp
    rw [← mem_permutations, permutations_pair] at hp
    simpa using hp
  have hall : ∀ p, p.Perm [-2, -1] → ∃ v, Answers doubler false [] p (.ok v) := by
    intro p hp
    rcases horders hp with rfl | rfl
    · exact ⟨_, hlow⟩
    · exact ⟨_, hhigh⟩
  obtain ⟨best, v, hfinds, hperm, hv, hmax, -, hother⟩ :=
    (bestPhases_maximum doubler false [] (show ([-2, -1] : List Cell) ≠ [] by decide)).1 hall
  have hswap : List.Perm [-1, -2] [(-2 : Cell), -1] := .swap _ _ _
  obtain ⟨rfl, rfl⟩ : best = [-1, -2] ∧ v = -4 := by
    rcases horders hperm with rfl | rfl
    · have hle : -4 ≤ v := hmax _ _ hswap hhigh
      cases hv.unique hlow
      exact absurd hle (by decide)
    · exact ⟨rfl, Except.ok.inj (hv.unique hhigh)⟩
  have hexec : Answers executor false [] [99, 0] (.ok 99) :=
    answers_of_amplify (show amplify 14 executor [99, 0] false [] = _ from rfl)
  have hfail : Answers executor false [] [0, 99]
      (.error (.run [0, 99] (.machine 0 ⟨"A", .opcode 10 0⟩))) :=
    answers_of_amplify (show amplify 14 executor [0, 99] false [] = _ from rfl)
  obtain ⟨front, first, back, e, hsplit, hfirst, -, herror, -⟩ :=
    (bestPhases_maximum executor false [] (show ([99, 0] : List Cell) ≠ [] by decide)).2
      ⟨[0, 99], _, .swap _ _ _, hfail⟩
  refine ⟨hfinds, hother _ hswap, ?_⟩
  rw [permutations_pair] at hsplit
  cases front with
  | nil =>
    cases hsplit
    cases hfirst.unique hexec
  | cons p front =>
    cases front with
    | nil =>
      cases hsplit
      cases hfirst.unique hfail
      apply herror
      intro p hp
      exact ⟨_, List.mem_singleton.1 hp ▸ hexec⟩
    | cons q front => simp at hsplit

end CellMachine.Amplifier
