import Mathlib.Algebra.BigOperators.Group.List.Basic
import Mathlib.Data.List.Infix
import Mathlib.Data.List.Sort

/-!
# Greedy prefixes

`greedy stop size spent items` takes items from the front of a list, adding
the size of each to what has been spent, until `stop` accepts the amount spent
or the list ends.  The result is the shortest prefix that stops.
-/

namespace Greedy

universe u v

variable {Item : Type u} {Amount : Type v} [AddMonoid Amount]
  (stop : Amount → Bool) (size : Item → Amount)

/-- Take items until the amount spent stops the process. -/
def greedy (spent : Amount) : List Item → List Item
  | [] => []
  | item :: rest =>
      if stop spent then [] else item :: greedy (spent + size item) rest

def cost (items : List Item) : Amount :=
  (items.map size).sum

@[simp]
theorem cost_nil : cost size [] = 0 := rfl

@[simp]
theorem cost_cons (item : Item) (rest : List Item) :
    cost size (item :: rest) = size item + cost size rest :=
  List.sum_cons

@[simp]
theorem cost_append (first second : List Item) :
    cost size (first ++ second) = cost size first + cost size second := by
  simp [cost]

variable {stop size}

theorem greedy_eq_nil_of_stop {spent : Amount} (stopped : stop spent = true)
    (items : List Item) : greedy stop size spent items = [] := by
  cases items <;> simp [greedy, stopped]

theorem greedy_eq_nil_iff {spent : Amount} {items : List Item} :
    greedy stop size spent items = [] ↔ stop spent = true ∨ items = [] := by
  cases items with
  | nil => simp [greedy]
  | cons item rest => by_cases stopped : stop spent = true <;> simp [greedy, stopped]

theorem greedy_isPrefix (spent : Amount) (items : List Item) :
    greedy stop size spent items <+: items := by
  induction items generalizing spent with
  | nil => exact List.prefix_rfl
  | cons item rest inductionHypothesis =>
      by_cases stopped : stop spent = true
      · simp [greedy, stopped]
      · simpa [greedy, stopped] using inductionHypothesis (spent + size item)

/-- Either the amount spent at the end stops, or every item was taken. -/
theorem stop_or_greedy_eq (spent : Amount) (items : List Item) :
    stop (spent + cost size (greedy stop size spent items)) = true ∨
      greedy stop size spent items = items := by
  induction items generalizing spent with
  | nil => exact .inr rfl
  | cons item rest inductionHypothesis =>
      by_cases stopped : stop spent = true
      · exact .inl (by simp [greedy, stopped])
      · simpa [greedy, stopped, add_assoc] using inductionHypothesis (spent + size item)

theorem not_stop_of_isPrefix (spent : Amount) {items shorter : List Item}
    (included : shorter <+: greedy stop size spent items)
    (proper : shorter ≠ greedy stop size spent items) :
    stop (spent + cost size shorter) = false := by
  induction items generalizing spent shorter with
  | nil => exact absurd (List.prefix_nil.mp included) proper
  | cons item rest inductionHypothesis =>
      by_cases stopped : stop spent = true
      · simp only [greedy, stopped, if_true] at included proper
        exact absurd (List.prefix_nil.mp included) proper
      · simp only [greedy, stopped, Bool.false_eq_true, if_false] at included proper
        cases shorter with
        | nil => simpa using stopped
        | cons head tail =>
            obtain ⟨same, tailIncluded⟩ := List.cons_prefix_cons.mp included
            subst same
            have tailProper : tail ≠ greedy stop size (spent + size head) rest :=
              fun equal => proper (by rw [equal])
            simpa [add_assoc] using inductionHypothesis (spent + size head)
              tailIncluded tailProper

theorem greedy_append (spent : Amount) (first second : List Item) :
    greedy stop size spent (first ++ second) =
      greedy stop size spent first ++
        greedy stop size (spent + cost size (greedy stop size spent first)) second := by
  induction first generalizing spent with
  | nil => simp [greedy]
  | cons item rest inductionHypothesis =>
      by_cases stopped : stop spent = true
      · simp [greedy, stopped, greedy_eq_nil_of_stop]
      · simp [greedy, stopped, inductionHypothesis, add_assoc]

/-! ## The shortest prefix that is enough -/

/-- The shortest prefix with the property, or the whole list if no prefix has it. -/
structure ShortestPrefix (Enough : List Item → Prop) (items taken : List Item) : Prop where
  isPrefix : taken <+: items
  enough : Enough taken ∨ (taken = items ∧ ∀ front, front <+: items → ¬ Enough front)
  least : ∀ front, front <+: items → Enough front → taken <+: front

theorem greedy_shortest (spent : Amount) (items : List Item) :
    ShortestPrefix (fun front => stop (spent + cost size front) = true) items
      (greedy stop size spent items) := by
  have least : ∀ front, front <+: items → stop (spent + cost size front) = true →
      greedy stop size spent items <+: front := by
    intro front included enough
    rcases List.prefix_or_prefix_of_prefix (greedy_isPrefix spent items) included with
      before | after
    · exact before
    · by_cases same : front = greedy stop size spent items
      · exact same ▸ List.prefix_rfl
      · rw [not_stop_of_isPrefix spent after same] at enough
        cases enough
  refine ⟨greedy_isPrefix spent items, ?_, least⟩
  by_cases enough : stop (spent + cost size (greedy stop size spent items)) = true
  · exact .inl enough
  · have whole := (stop_or_greedy_eq spent items).resolve_left enough
    refine .inr ⟨whole, fun front included stopped => enough ?_⟩
    have same := (least front included stopped).eq_of_length_le
      (whole.symm ▸ included.length_le)
    exact same.symm ▸ stopped

theorem ShortestPrefix.congr {Enough Enough' : List Item → Prop} {items taken : List Item}
    (shortest : ShortestPrefix Enough items taken)
    (same : ∀ front, front <+: items → (Enough front ↔ Enough' front)) :
    ShortestPrefix Enough' items taken where
  isPrefix := shortest.isPrefix
  enough := shortest.enough.imp (same taken shortest.isPrefix).mp fun ⟨whole, never⟩ =>
    ⟨whole, fun front included enough => never front included ((same front included).mpr enough)⟩
  least front included enough :=
    shortest.least front included ((same front included).mpr enough)

theorem ShortestPrefix.not_enough {Enough : List Item → Prop} {items taken front : List Item}
    (shortest : ShortestPrefix Enough items taken) (included : front <+: taken)
    (proper : front ≠ taken) : ¬ Enough front := fun enough =>
  proper (included.eq_of_length_le
    (shortest.least front (included.trans shortest.isPrefix) enough).length_le)

/-! ## Sorted items

Sorting is stable, so dropping items before or after it makes no difference. -/

section Sorted

variable {before : Item → Item → Prop} [DecidableRel before] [IsTrans Item before]
  {keep : Item → Bool}

theorem filter_orderedInsert {items : List Item} (sorted : items.Pairwise before) (item : Item) :
    (items.orderedInsert before item).filter keep =
      if keep item then (items.filter keep).orderedInsert before item
      else items.filter keep := by
  induction items with
  | nil => cases kept : keep item <;> simp [kept]
  | cons head rest inductionHypothesis =>
      obtain ⟨first, later⟩ := List.pairwise_cons.mp sorted
      by_cases precedes : before item head
      · -- the item precedes all that is kept of the list
        have all : ∀ other ∈ (head :: rest).filter keep, before item other := by
          intro other member
          rcases List.mem_cons.mp (List.mem_filter.mp member).1 with rfl | inRest
          · exact precedes
          · exact trans_of before precedes (first other inRest)
        rw [List.orderedInsert_cons_of_le _ _ precedes, List.filter_cons]
        congr 1
        cases found : (head :: rest).filter keep with
        | nil => rfl
        | cons other others =>
            rw [found] at all
            rw [List.orderedInsert_cons_of_le _ _ (all other List.mem_cons_self)]
      · rw [List.orderedInsert_of_not_le _ _ precedes, List.filter_cons, List.filter_cons,
          inductionHypothesis later]
        cases keep head <;> cases keep item <;> simp [precedes]

theorem filter_insertionSort [Std.Total before] (items : List Item) :
    (items.insertionSort before).filter keep = (items.filter keep).insertionSort before := by
  induction items with
  | nil => rfl
  | cons item rest inductionHypothesis =>
      rw [List.insertionSort_cons, filter_orderedInsert (List.pairwise_insertionSort before rest),
        inductionHypothesis, List.filter_cons]
      cases keep item <;> rfl

/-- Without ties, sorting forgets the order in which the items came. -/
theorem insertionSort_eq_of_perm [Std.Total before] {items items' : List Item}
    (rearranged : items.Perm items')
    (untied : ∀ first ∈ items, ∀ second ∈ items, before first second → before second first →
      first = second) :
    items.insertionSort before = items'.insertionSort before := by
  have sorted := List.perm_insertionSort before items
  have sorted' := List.perm_insertionSort before items'
  apply List.Perm.eq_of_pairwise _ (List.pairwise_insertionSort before items)
    (List.pairwise_insertionSort before items')
  · exact (sorted.trans rearranged).trans sorted'.symm
  · intro first second member member'
    exact untied first (sorted.mem_iff.mp member) second
      (rearranged.mem_iff.mpr (sorted'.mem_iff.mp member'))

end Sorted

end Greedy
