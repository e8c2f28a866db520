import Mathlib
import NetWorth.Ledger.Replay
import NetWorth.Proofs.Decimal.Value

/-!
# First in, first out

The quantities of lots as exact numbers.  `consume` takes an amount from the
front of a queue of shares, as a sale does; `remainder` says in one formula
which shares are left of a queue and how much of each.  The two agree, so the
order in which purchases and sales come does not matter for what is left.
-/

namespace NetWorth

/-- A part of a purchase with its exact quantity. -/
structure Share where
  quantity : ℚ
  unitCost : Decimal
  sequence : Nat

/-- What a lot holds. -/
def Lot.share
    (lot : Lot) :
    Share where
  quantity :=
    lot.quantity.value
  unitCost :=
    lot.unitCost
  sequence :=
    lot.sequence

/-- What a purchase brings in. -/
def Entry.share
    (entry : Entry) :
    Share where
  quantity :=
    entry.trade.quantity.value
  unitCost :=
    entry.trade.unitPrice
  sequence :=
    entry.sequence

namespace Share

/-- The quantity of all shares. -/
def total
    (shares : List Share) :
    ℚ :=
  (shares.map (·.quantity)).sum

/-- The cost of all shares. -/
def cost
    (shares : List Share) :
    ℚ :=
  (shares.map fun share => share.quantity * share.unitCost.value).sum

/-- Takes an amount from the front of a queue. -/
def consume
    (amount : ℚ) :
    List Share → List Share
  | [] => []
  | share :: rest =>
      if amount < share.quantity then
        { share with quantity := share.quantity - amount } :: rest
      else
        consume (amount - share.quantity) rest

/--
The shares that are left of a queue once an amount has been taken from its
front: those up to which, themselves included, there is more than the amount,
and of each no more than this surplus.
-/
def remainder
    (amount : ℚ)
    (queue : List Share) :
    List Share :=
  (queue.zipIdx.filter fun (_, place) =>
    amount < total (queue.take (place + 1))).map
      fun (share, place) =>
        { share with
          quantity :=
            min share.quantity
              (total (queue.take (place + 1)) - amount) }

/-- No share of a queue is empty. -/
def Positive
    (queue : List Share) :
    Prop :=
  ∀ share ∈ queue, 0 < share.quantity

@[simp] theorem total_nil :
    total [] = 0 :=
  rfl

@[simp] theorem total_cons
    (share : Share)
    (rest : List Share) :
    total (share :: rest) = share.quantity + total rest := by
  simp [total]

@[simp] theorem total_append
    (first second : List Share) :
    total (first ++ second) = total first + total second := by
  simp [total]

@[simp] theorem cost_nil :
    cost [] = 0 :=
  rfl

@[simp] theorem cost_cons
    (share : Share)
    (rest : List Share) :
    cost (share :: rest) =
      share.quantity * share.unitCost.value + cost rest := by
  simp [cost]

@[simp] theorem cost_append
    (first second : List Share) :
    cost (first ++ second) = cost first + cost second := by
  simp [cost]

namespace Positive

theorem head_pos
    {share : Share}
    {rest : List Share}
    (positive : Positive (share :: rest)) :
    0 < share.quantity :=
  positive share (by simp)

theorem tail
    {share : Share}
    {rest : List Share}
    (positive : Positive (share :: rest)) :
    Positive rest :=
  fun later member => positive later (by simp [member])

theorem total_nonneg
    {queue : List Share}
    (positive : Positive queue) :
    0 ≤ total queue := by
  apply List.sum_nonneg
  intro quantity member
  obtain ⟨share, shareMember, rfl⟩ := List.mem_map.mp member
  exact (positive share shareMember).le

theorem cost_nonneg
    {queue : List Share}
    (positive : Positive queue)
    (costsNonneg : ∀ share ∈ queue, 0 ≤ share.unitCost.value) :
    0 ≤ cost queue := by
  apply List.sum_nonneg
  intro amount member
  obtain ⟨share, shareMember, rfl⟩ := List.mem_map.mp member
  exact mul_nonneg (positive share shareMember).le
    (costsNonneg share shareMember)

/-- Taking nothing leaves the queue as it is. -/
theorem consume_zero
    {queue : List Share}
    (positive : Positive queue) :
    consume 0 queue = queue := by
  cases queue with
  | nil =>
      rfl
  | cons share rest =>
      simp [consume, positive.head_pos]

/-- What is left has no empty shares. -/
theorem consume
    {queue : List Share}
    (positive : Positive queue)
    (amount : ℚ) :
    Positive (consume amount queue) := by
  induction queue generalizing amount with
  | nil =>
      exact positive
  | cons share rest inductionHypothesis =>
      unfold Share.consume
      split
      · next less =>
          intro left member
          rcases List.mem_cons.mp member with isHead | inRest
          · subst left
            exact sub_pos.mpr less
          · exact positive.tail left inRest
      · exact inductionHypothesis positive.tail _

end Positive

/-- Taking twice is taking both amounts at once. -/
theorem consume_consume
    {queue : List Share}
    {first second : ℚ}
    (secondNonneg : 0 ≤ second) :
    consume second (consume first queue) =
      consume (first + second) queue := by
  induction queue generalizing first with
  | nil =>
      rfl
  | cons share rest inductionHypothesis =>
      by_cases less : first < share.quantity
      · by_cases lessStill : first + second < share.quantity
        · have secondLess : second < share.quantity - first := by
            linarith
          simp [consume, less, lessStill, secondLess, sub_sub]
        · have secondMore : ¬ second < share.quantity - first := by
            linarith
          simp only [consume, less, lessStill, secondMore, if_true,
            if_false]
          congr 1
          ring
      · have more : ¬ first + second < share.quantity := by
          linarith
        simp only [consume, less, more, if_false, inductionHypothesis]
        congr 1
        ring

/-- A share that comes in last is touched last. -/
theorem consume_append
    {queue : List Share}
    {last : Share}
    (lastPos : 0 < last.quantity)
    {amount : ℚ}
    (nonneg : 0 ≤ amount)
    (covered : amount ≤ total queue) :
    consume amount (queue ++ [last]) = consume amount queue ++ [last] := by
  induction queue generalizing amount with
  | nil =>
      have nothing : amount = 0 := le_antisymm covered nonneg
      simp [consume, nothing, lastPos]
  | cons share rest inductionHypothesis =>
      rw [total_cons] at covered
      by_cases less : amount < share.quantity
      · simp [consume, less]
      · simp only [List.cons_append, consume, less, if_false]
        exact inductionHypothesis (by linarith) (by linarith)

/-- Nothing is left when at least everything is taken. -/
theorem consume_eq_nil
    {queue : List Share}
    (positive : Positive queue)
    {amount : ℚ}
    (all : total queue ≤ amount) :
    consume amount queue = [] := by
  induction queue generalizing amount with
  | nil =>
      rfl
  | cons share rest inductionHypothesis =>
      rw [total_cons] at all
      have restNonneg := positive.tail.total_nonneg
      have notLess : ¬ amount < share.quantity := by linarith
      simp only [consume, notLess, if_false]
      exact inductionHypothesis positive.tail (by linarith)

/-- What is taken is missing from the total. -/
theorem total_consume
    {queue : List Share}
    {amount : ℚ}
    (nonneg : 0 ≤ amount)
    (covered : amount ≤ total queue) :
    total (consume amount queue) = total queue - amount := by
  induction queue generalizing amount with
  | nil =>
      have nothing : amount = 0 := le_antisymm covered nonneg
      simp [consume, nothing]
  | cons share rest inductionHypothesis =>
      rw [total_cons] at covered ⊢
      by_cases less : amount < share.quantity
      · simp only [consume, less, if_true, total_cons]
        ring
      · simp only [consume, less, if_false]
        rw [inductionHypothesis (by linarith) (by linarith)]
        ring

/-- What is left costs no more than the whole queue. -/
theorem cost_consume_le
    {queue : List Share}
    (positive : Positive queue)
    (costsNonneg : ∀ share ∈ queue, 0 ≤ share.unitCost.value)
    {amount : ℚ}
    (nonneg : 0 ≤ amount) :
    cost (consume amount queue) ≤ cost queue := by
  induction queue generalizing amount with
  | nil =>
      simp [consume]
  | cons share rest inductionHypothesis =>
      have unitNonneg := costsNonneg share (by simp)
      have restCosts :
          ∀ later ∈ rest, 0 ≤ later.unitCost.value :=
        fun later member => costsNonneg later (by simp [member])
      by_cases less : amount < share.quantity
      · have taken : 0 ≤ amount * share.unitCost.value :=
          mul_nonneg nonneg unitNonneg
        simp only [consume, less, if_true, cost_cons]
        linarith
      · have others := inductionHypothesis positive.tail restCosts
          (sub_nonneg.mpr (not_lt.mp less))
        have headNonneg : 0 ≤ share.quantity * share.unitCost.value :=
          mul_nonneg positive.head_pos.le unitNonneg
        simp only [consume, less, if_false, cost_cons]
        exact others.trans (le_add_of_nonneg_left headNonneg)

/-- What is left has the unit costs of the queue. -/
theorem unitCost_consume
    (property : Decimal → Prop)
    {queue : List Share}
    (holds : ∀ share ∈ queue, property share.unitCost)
    (amount : ℚ) :
    ∀ share ∈ consume amount queue, property share.unitCost := by
  induction queue generalizing amount with
  | nil =>
      exact holds
  | cons share rest inductionHypothesis =>
      have restHolds :
          ∀ later ∈ rest, property later.unitCost :=
        fun later member => holds later (by simp [member])
      unfold consume
      split
      · intro left member
        rcases List.mem_cons.mp member with isHead | inRest
        · subst left
          exact holds share (by simp)
        · exact restHolds left inRest
      · exact inductionHypothesis restHolds _

/-- Shares of one unit cost have cost it for all of their quantity. -/
theorem cost_eq_mul_total
    {queue : List Share}
    {unitCost : ℚ}
    (uniform : ∀ share ∈ queue, share.unitCost.value = unitCost) :
    cost queue = unitCost * total queue := by
  induction queue with
  | nil =>
      simp
  | cons share rest inductionHypothesis =>
      obtain ⟨head, restUniform⟩ := List.forall_mem_cons.mp uniform
      rw [cost_cons, total_cons, head, inductionHypothesis restUniform]
      ring

/-- Unit costs are decimals, so an average cost is within their range. -/
theorem cost_le_mul_total
    {queue : List Share}
    (positive : Positive queue) :
    cost queue ≤ Decimal.maxCoefficient * total queue := by
  induction queue with
  | nil =>
      simp
  | cons share rest inductionHypothesis =>
      have bounded : share.unitCost.value ≤ Decimal.maxCoefficient :=
        (le_abs_self _).trans share.unitCost.abs_value_le
      have head :
          share.quantity * share.unitCost.value ≤
            Decimal.maxCoefficient * share.quantity := by
        rw [mul_comm]
        exact mul_le_mul_of_nonneg_right bounded positive.head_pos.le
      rw [cost_cons, total_cons, mul_add]
      exact add_le_add head (inductionHypothesis positive.tail)

/-- Up to a share there is at least the share itself. -/
private theorem quantity_le_total_take
    {queue : List Share}
    (positive : Positive queue)
    {share : Share}
    {place : Nat}
    (found : (share, place) ∈ queue.zipIdx) :
    share.quantity ≤ total (queue.take (place + 1)) := by
  obtain ⟨inside, shareEq⟩ := List.mem_zipIdx' found
  rw [List.take_succ_eq_append_getElem inside, total_append, ← shareEq]
  have before : Positive (queue.take place) :=
    fun earlier member => positive earlier (List.mem_of_mem_take member)
  simpa using before.total_nonneg

/-- The first share is left if it exceeds the amount, and the others are left
as if what it does not cover were taken from them alone. -/
private theorem remainder_cons
    (amount : ℚ)
    (share : Share)
    (rest : List Share) :
    remainder amount (share :: rest) =
      (if amount < share.quantity then
        [{ share with
            quantity := min share.quantity (share.quantity - amount) }]
      else []) ++ remainder (amount - share.quantity) rest := by
  have shifted (place : Nat) :
      share.quantity + total (rest.take (place + 1)) - amount =
        total (rest.take (place + 1)) - (amount - share.quantity) := by
    ring
  unfold remainder
  rw [List.zipIdx_cons', List.filter_cons]
  simp only [List.filter_map, List.take_succ_cons, total_cons,
    List.take_zero, total_nil, add_zero, decide_eq_true_eq,
    Function.comp_def, Prod.map_snd, sub_lt_iff_lt_add']
  split <;>
    simp [List.map_map, Function.comp_def, shifted]

/-- A queue of which nothing is missing is left whole. -/
private theorem remainder_of_nonpos
    {queue : List Share}
    (positive : Positive queue)
    {amount : ℚ}
    (nothing : amount ≤ 0) :
    remainder amount queue = queue := by
  have whole :
      ∀ entry ∈ queue.zipIdx,
        amount < total (queue.take (entry.2 + 1)) ∧
          min entry.1.quantity
            (total (queue.take (entry.2 + 1)) - amount) =
            entry.1.quantity := by
    rintro ⟨share, place⟩ member
    have atLeast := quantity_le_total_take positive member
    have pos := positive share (List.fst_mem_of_mem_zipIdx member)
    exact ⟨by linarith, min_eq_left (by linarith)⟩
  unfold remainder
  rw [List.filter_eq_self.mpr fun entry member =>
    decide_eq_true (whole entry member).1]
  calc
    queue.zipIdx.map _ = queue.zipIdx.map Prod.fst := by
      apply List.map_congr_left
      rintro ⟨share, place⟩ member
      exact congrArg (Share.mk · share.unitCost share.sequence)
        (whole _ member).2
    _ = queue := List.zipIdx_map_fst _ _

/-- Taking from the front leaves exactly what the formula says. -/
theorem consume_eq_remainder
    {queue : List Share}
    (positive : Positive queue)
    {amount : ℚ}
    (nonneg : 0 ≤ amount) :
    consume amount queue = remainder amount queue := by
  -- both sides take the first share and go on with what it does not cover
  induction queue generalizing amount with
  | nil =>
      rfl
  | cons share rest inductionHypothesis =>
      rw [remainder_cons]
      by_cases less : amount < share.quantity
      · have untouched : remainder (amount - share.quantity) rest = rest :=
          remainder_of_nonpos positive.tail (sub_nonpos.mpr less.le)
        have surplus :
            min share.quantity (share.quantity - amount) =
              share.quantity - amount :=
          min_eq_right (sub_le_self _ nonneg)
        simp only [consume, less, if_true, surplus, untouched,
          List.cons_append, List.nil_append]
      · simp only [consume, less, if_false, List.nil_append]
        exact inductionHypothesis positive.tail
          (sub_nonneg.mpr (not_lt.mp less))

end Share

end NetWorth
