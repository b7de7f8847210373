import Mathlib.Data.Set.Insert
import Mathlib.Data.List.Perm.Basic

/-! A scan over entries that can succeed or fail, which ends at the first failure. What it finds
depends on where the failures stand; it finds everything, or finds the same in every order,
only for some lists. -/

namespace SNFrame.Library.EarlyExit

variable {Key Source : Type*}

open Classical in
/-- Each entry is a key and whether its attempt would succeed. Only the keys that are wanted and
not yet known are attempted. -/
noncomputable def discover (wanted : Set Key) (known : Set Key) : List (Key × Bool) → Set Key
  | [] => known
  | (key, up) :: rest =>
      if key ∈ wanted \ known then
        if up then discover wanted (insert key known) rest else known
      else discover wanted known rest

/-- No attempt that is needed fails. -/
def Clear (wanted known : Set Key) (list : List (Key × Bool)) : Prop :=
  ∀ key ∈ wanted \ known, (key, false) ∉ list

/-- No attempt that is needed succeeds. -/
def Dark (wanted known : Set Key) (list : List (Key × Bool)) : Prop :=
  ∀ key ∈ wanted \ known, (key, true) ∉ list

def Complete (wanted known : Set Key) (list : List (Key × Bool)) : Prop :=
  ∀ key ∈ wanted, (key, true) ∈ list → key ∈ discover wanted known list

/-- Whatever succeeds after a failed attempt has also succeeded before it. -/
def Unhindered (wanted known : Set Key) (list : List (Key × Bool)) : Prop :=
  ∀ before key after, list = before ++ (key, false) :: after →
    key ∈ wanted \ known → (key, true) ∉ before →
    ∀ other ∈ wanted \ known, (other, true) ∈ after → (other, true) ∈ before

section Scan
variable {wanted known : Set Key} {key : Key} {up : Bool} {list rest : List (Key × Bool)}

theorem discover_skip (skipped : key ∉ wanted \ known) :
    discover wanted known ((key, up) :: rest) = discover wanted known rest := by
  rw [discover, if_neg skipped]

theorem discover_up (needed : key ∈ wanted \ known) :
    discover wanted known ((key, true) :: rest) = discover wanted (insert key known) rest := by
  rw [discover, if_pos needed, if_pos rfl]

theorem discover_down (needed : key ∈ wanted \ known) :
    discover wanted known ((key, false) :: rest) = known := by
  rw [discover, if_pos needed, if_neg Bool.false_ne_true]

theorem subset_discover (wanted known : Set Key) (list : List (Key × Bool)) :
    known ⊆ discover wanted known list := by
  induction list generalizing known with
  | nil => exact subset_rfl
  | cons entry rest ih =>
    obtain ⟨key, up⟩ := entry
    by_cases needed : key ∈ wanted \ known
    · cases up with
      | true =>
        rw [discover_up needed]
        exact (Set.subset_insert key known).trans (ih _)
      | false => rw [discover_down needed]
    · rw [discover_skip needed]
      exact ih known

/-- Only keys whose attempt succeeds are added. -/
theorem discover_subset (wanted known : Set Key) (list : List (Key × Bool)) :
    discover wanted known list ⊆ known ∪ {key | key ∈ wanted ∧ (key, true) ∈ list} := by
  induction list generalizing known with
  | nil => exact Set.subset_union_left
  | cons entry rest ih =>
    obtain ⟨key, up⟩ := entry
    have widen : known ∪ {key | key ∈ wanted ∧ (key, true) ∈ rest} ⊆
        known ∪ {other | other ∈ wanted ∧ (other, true) ∈ (key, up) :: rest} :=
      Set.union_subset_union_right _ fun _ inside => ⟨inside.1, List.mem_cons_of_mem _ inside.2⟩
    by_cases needed : key ∈ wanted \ known
    · cases up with
      | true =>
        rw [discover_up needed]
        refine (ih _).trans ?_
        rw [Set.insert_union]
        exact Set.insert_subset (.inr ⟨needed.1, List.mem_cons_self⟩) widen
      | false =>
        rw [discover_down needed]
        exact Set.subset_union_left
    · rw [discover_skip needed]
      exact (ih known).trans widen

theorem Clear.tail {entry : Key × Bool} (clear : Clear wanted known (entry :: rest)) :
    Clear wanted known rest :=
  fun other needed failing => clear other needed (List.mem_cons_of_mem _ failing)

theorem Clear.mono {more : Set Key} (clear : Clear wanted known list) (grown : known ⊆ more) :
    Clear wanted more list :=
  fun other needed => clear other ⟨needed.1, fun old => needed.2 (grown old)⟩

/-- Without a failure the result is the same in every order. -/
theorem discover_of_clear (clear : Clear wanted known list) :
    discover wanted known list = known ∪ {key | key ∈ wanted ∧ (key, true) ∈ list} := by
  apply (discover_subset wanted known list).antisymm
  apply Set.union_subset (subset_discover wanted known list)
  rintro key ⟨isWanted, succeeds⟩
  induction list generalizing known with
  | nil => cases succeeds
  | cons entry rest ih =>
    obtain ⟨first, up⟩ := entry
    by_cases needed : first ∈ wanted \ known
    · cases up with
      | false => exact absurd List.mem_cons_self (clear first needed)
      | true =>
        rw [discover_up needed]
        rcases List.mem_cons.mp succeeds with same | later
        · cases same
          exact subset_discover _ _ _ (Set.mem_insert key known)
        · exact ih (clear.tail.mono (Set.subset_insert first known)) later
    · rw [discover_skip needed]
      rcases List.mem_cons.mp succeeds with same | later
      · cases same
        exact subset_discover _ _ _ (not_not.mp fun new => needed ⟨isWanted, new⟩)
      · exact ih clear.tail later

theorem discover_of_dark (dark : Dark wanted known list) : discover wanted known list = known := by
  apply Set.Subset.antisymm _ (subset_discover wanted known list)
  intro key found
  rcases discover_subset wanted known list found with old | ⟨isWanted, succeeds⟩
  · exact old
  · by_contra new
    exact dark key ⟨isWanted, new⟩ succeeds

theorem discover_append_up {before after : List (Key × Bool)} (clear : Clear wanted known before) :
    discover wanted known before ⊆ discover wanted known (before ++ after) := by
  induction before generalizing known with
  | nil => exact subset_discover wanted known after
  | cons entry rest ih =>
    obtain ⟨first, up⟩ := entry
    rw [List.cons_append]
    by_cases needed : first ∈ wanted \ known
    · cases up with
      | false => exact absurd List.mem_cons_self (clear first needed)
      | true =>
        rw [discover_up needed, discover_up needed]
        exact ih (clear.tail.mono (Set.subset_insert first known))
    · rw [discover_skip needed, discover_skip needed]
      exact ih clear.tail

/-- A needed failure among the first entries hides everything behind them. -/
theorem discover_append_down {before after : List (Key × Bool)} (dark : Dark wanted known before)
    (blocked : ¬Clear wanted known before) : discover wanted known (before ++ after) = known := by
  induction before with
  | nil => exact absurd (fun _ _ => List.not_mem_nil) blocked
  | cons entry rest ih =>
    obtain ⟨first, up⟩ := entry
    rw [List.cons_append]
    by_cases needed : first ∈ wanted \ known
    · cases up with
      | false => exact discover_down needed
      | true => exact absurd List.mem_cons_self (dark first needed)
    · rw [discover_skip needed]
      apply ih fun other still succeeding => dark other still (List.mem_cons_of_mem _ succeeding)
      intro clear
      apply blocked
      intro other still failing
      rcases List.mem_cons.mp failing with same | later
      · cases same
        exact needed still
      · exact clear other still later

theorem unhindered_skip (skipped : key ∉ wanted \ known) :
    Unhindered wanted known ((key, up) :: rest) ↔ Unhindered wanted known rest := by
  constructor
  · intro free before failed after split needed first other otherNeeded succeeds
    have inside := free ((key, up) :: before) failed after (by rw [split]; rfl) needed ?_ other
      otherNeeded succeeds
    · rcases List.mem_cons.mp inside with same | inside
      · cases same
        exact absurd otherNeeded skipped
      · exact inside
    · intro earlier
      rcases List.mem_cons.mp earlier with same | earlier
      · cases same
        exact skipped needed
      · exact first earlier
  · intro free before failed after split needed first other otherNeeded succeeds
    rcases List.cons_eq_append_iff.mp split with ⟨rfl, same⟩ | ⟨before, rfl, same⟩
    · cases same
      exact absurd needed skipped
    · apply List.mem_cons_of_mem
      exact free before failed after same needed
        (fun earlier => first (List.mem_cons_of_mem _ earlier)) other otherNeeded succeeds

/-- A success makes its key known for the rest. -/
theorem unhindered_up (needed : key ∈ wanted \ known) :
    Unhindered wanted known ((key, true) :: rest) ↔
      Unhindered wanted (insert key known) rest := by
  constructor
  · intro free before failed after split failedNeeded first other otherNeeded succeeds
    have apart : failed ≠ key := fun same => failedNeeded.2 (.inl same)
    have otherApart : other ≠ key := fun same => otherNeeded.2 (.inl same)
    have inside := free ((key, true) :: before) failed after (by rw [split]; rfl)
      ⟨failedNeeded.1, fun old => failedNeeded.2 (.inr old)⟩ (by simp [apart, first]) other
      ⟨otherNeeded.1, fun old => otherNeeded.2 (.inr old)⟩ succeeds
    simpa [otherApart] using inside
  · intro free before failed after split failedNeeded first other otherNeeded succeeds
    rcases List.cons_eq_append_iff.mp split with ⟨rfl, same⟩ | ⟨before, rfl, same⟩
    · cases same
    · by_cases known : other = key
      · rw [known]
        exact List.mem_cons_self
      · have apart : failed ≠ key := by
          rintro rfl
          exact first List.mem_cons_self
        apply List.mem_cons_of_mem
        exact free before failed after same ⟨failedNeeded.1, by simp [apart, failedNeeded.2]⟩
          (fun earlier => first (List.mem_cons_of_mem _ earlier)) other
          ⟨otherNeeded.1, by simp [known, otherNeeded.2]⟩ succeeds

theorem unhindered_down (needed : key ∈ wanted \ known) :
    Unhindered wanted known ((key, false) :: rest) ↔ Dark wanted known rest := by
  constructor
  · intro free other otherNeeded succeeds
    exact List.not_mem_nil
      (free [] key rest rfl needed List.not_mem_nil other otherNeeded succeeds)
  · intro dark before failed after split failedNeeded first other otherNeeded succeeds
    have inside : (other, true) ∈ (key, false) :: rest := by
      rw [split]
      exact List.mem_append_right _ (List.mem_cons_of_mem _ succeeds)
    refine absurd ?_ (dark other otherNeeded)
    simpa using inside

/-- The scan finds all that succeeds if and only if no failed attempt is in the way. -/
theorem complete_iff_unhindered (wanted known : Set Key) (list : List (Key × Bool)) :
    Complete wanted known list ↔ Unhindered wanted known list := by
  induction list generalizing known with
  | nil =>
    refine iff_of_true (fun _ _ inside => nomatch inside) ?_
    intro before key after split
    cases before <;> cases split
  | cons entry rest ih =>
    obtain ⟨first, up⟩ := entry
    have later : ∀ {found : Set Key}, discover wanted known ((first, up) :: rest) = found →
        (up = true → first ∈ wanted → first ∈ found) →
        (Complete wanted known ((first, up) :: rest) ↔
          ∀ key ∈ wanted, (key, true) ∈ rest → key ∈ found) := by
      rintro found scanned own
      simp only [Complete, scanned, List.mem_cons]
      constructor
      · exact fun complete key isWanted succeeds => complete key isWanted (.inr succeeds)
      · rintro complete key isWanted (same | succeeds)
        · cases same
          exact own rfl isWanted
        · exact complete key isWanted succeeds
    by_cases needed : first ∈ wanted \ known
    · cases up with
      | true =>
        have own : first ∈ discover wanted (insert first known) rest :=
          subset_discover _ _ _ (Set.mem_insert first known)
        rw [later (discover_up needed) fun _ _ => own, unhindered_up needed]
        exact ih (insert first known)
      | false =>
        rw [later (discover_down needed) nofun, unhindered_down needed]
        exact ⟨fun complete key still succeeds => still.2 (complete key still.1 succeeds),
          fun dark key isWanted succeeds => not_not.mp fun new => dark key ⟨isWanted, new⟩ succeeds⟩
    · rw [later (discover_skip needed) fun _ isWanted =>
          subset_discover _ _ _ (not_not.mp fun new => needed ⟨isWanted, new⟩),
        unhindered_skip needed]
      exact ih known

/-! ### The order of the sources -/

/-- Every order of the sources finds the same. -/
def OrderFree (wanted known : Set Key) (entries : Source → List (Key × Bool))
    (sources : List Source) : Prop :=
  ∀ other : List Source, other.Perm sources →
    discover wanted known (other.flatMap entries) = discover wanted known (sources.flatMap entries)

end Scan

section Sources
variable {wanted known : Set Key} {entries : Source → List (Key × Bool)} {sources : List Source}

theorem mem_flatMap_perm {other : List Source} (order : other.Perm sources) (entry : Key × Bool) :
    entry ∈ other.flatMap entries ↔ entry ∈ sources.flatMap entries :=
  (order.flatMap_right entries).mem_iff

theorem exists_first {source : Source} (inside : source ∈ sources) :
    ∃ rest, (source :: rest).Perm sources := by
  obtain ⟨before, after, rfl⟩ := List.append_of_mem inside
  exact ⟨before ++ after, List.perm_middle.symm⟩

/-- A source whose attempts fail, one of them needed, hides all when it comes first. -/
theorem discover_down_first {source : Source} (failing : ∀ entry ∈ entries source, entry.2 = false)
    {key : Key} (needed : key ∈ wanted \ known) (fails : (key, false) ∈ entries source) :
    discover wanted known ((source :: sources).flatMap entries) = known := by
  rw [List.flatMap_cons]
  apply discover_append_down
  · intro other _ succeeds
    cases failing _ succeeds
  · exact fun clear => clear key needed fails

theorem mem_discover_up_first {source : Source}
    (succeeding : ∀ entry ∈ entries source, entry.2 = true) {key : Key} (isWanted : key ∈ wanted)
    (succeeds : (key, true) ∈ entries source) :
    key ∈ discover wanted known ((source :: sources).flatMap entries) := by
  have clear : Clear wanted known (entries source) := by
    intro other _ fails
    cases succeeding _ fails
  rw [List.flatMap_cons]
  apply discover_append_up clear
  rw [discover_of_clear clear]
  exact .inr ⟨isWanted, succeeds⟩

/-- When the attempts of one source have one outcome, the order does not matter exactly when all
that is needed fails or none of it does. -/
theorem orderFree_iff (uniform : ∀ source, ∃ up, ∀ entry ∈ entries source, entry.2 = up) :
    OrderFree wanted known entries sources ↔
      Clear wanted known (sources.flatMap entries) ∨
        Dark wanted known (sources.flatMap entries) := by
  constructor
  · intro free
    by_contra! mixed
    obtain ⟨blocked, lit⟩ := mixed
    simp only [Clear, Dark, not_forall, not_not] at blocked lit
    obtain ⟨down, downNeeded, failing⟩ := blocked
    obtain ⟨key, needed, succeeding⟩ := lit
    obtain ⟨bad, badIn, fails⟩ := List.mem_flatMap.mp failing
    obtain ⟨good, goodIn, succeeds⟩ := List.mem_flatMap.mp succeeding
    have badAll : ∀ entry ∈ entries bad, entry.2 = false := by
      obtain ⟨up, alike⟩ := uniform bad
      exact fun entry inside => (alike entry inside).trans (alike _ fails).symm
    have goodAll : ∀ entry ∈ entries good, entry.2 = true := by
      obtain ⟨up, alike⟩ := uniform good
      exact fun entry inside => (alike entry inside).trans (alike _ succeeds).symm
    obtain ⟨badRest, badFirst⟩ := exists_first badIn
    obtain ⟨goodRest, goodFirst⟩ := exists_first goodIn
    have same := (free _ goodFirst).trans (free _ badFirst).symm
    rw [discover_down_first badAll downNeeded fails] at same
    apply needed.2
    rw [← same]
    exact mem_discover_up_first goodAll needed.1 succeeds
  · rintro (clear | dark) other order
    · rw [discover_of_clear clear, discover_of_clear]
      · simp only [mem_flatMap_perm order]
      · exact fun key needed failing => clear key needed ((mem_flatMap_perm order _).mp failing)
    · rw [discover_of_dark dark, discover_of_dark]
      exact fun key needed succeeding => dark key needed ((mem_flatMap_perm order _).mp succeeding)

end Sources

end SNFrame.Library.EarlyExit
