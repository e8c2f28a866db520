import Mathlib
import NetWorth.Proofs.Rates.Conversion
import NetWorth.Proofs.Rates.Records

/-!
# Spellings of one code

A rate table is made from rates that are taken in turn, and of two spellings of
one code the later one wins.  Rates that are written in no order are taken in
any, so a table of them is settled where no code has two spellings with
different rates, and nowhere else.  Its base, its time and its codes are settled
in any case.
-/

namespace NetWorth.RateTable

/-! ## Rates taken in turn -/

section OfRates

variable
  (base : String)
  (rates : List (String × Decimal))
  (updatedAt : Option Instant)

@[simp] theorem base_ofRates :
    (ofRates base rates updatedAt).base = normalCode base := by
  rw [ofRates, foldl_withRate]
  rfl

@[simp] theorem updatedAt_ofRates :
    (ofRates base rates updatedAt).updatedAt = updatedAt :=
  rfl

/-- A code has the rate that was set last under one of its spellings. -/
theorem get?_ofRates
    (code : String) :
    (ofRates base rates updatedAt).rates.get? code =
      (rates.reverse.find? fun entry => normalCode entry.1 = code).map
        (·.2) := by
  have found :=
    Table.get?_foldl_insert
      (fun entry : String × Decimal => normalCode entry.1)
      (fun entry => entry.2) rates (empty base).rates code
  rw [ofRates, foldl_withRate]
  exact found.trans Option.or_none

/-- Whatever rates are set, the codes of a table are in normal form. -/
theorem isNormal_ofRates :
    (ofRates base rates updatedAt).IsNormal where
  base_eq := by
    rw [base_ofRates, normalCode_normalCode]
  codes_eq := by
    intro code isKey
    obtain ⟨rate, isRate⟩ := Table.mem_keys_iff.mp isKey
    rw [get?_ofRates, Option.map_eq_some_iff] at isRate
    obtain ⟨entry, found, -⟩ := isRate
    have sameCode : normalCode entry.1 = code := by
      simpa using List.find?_some found
    rw [← sameCode, normalCode_normalCode]

end OfRates

/-! ## Tables that are the same for every look-up -/

/-- Two tables with the same base, time and rates, which convert alike. -/
structure Alike
    (first second : RateTable) :
    Prop where
  base_eq : first.base = second.base
  updatedAt_eq : first.updatedAt = second.updatedAt
  get?_eq : ∀ code, first.rates.get? code = second.rates.get? code
  toBase_eq :
    ∀ amount currency,
      first.toBase amount currency = second.toBase amount currency

/-- Tables of one base with the same rates convert alike. -/
theorem toBase_congr
    {first second : RateTable}
    (sameBase : first.base = second.base)
    (sameRates : ∀ code, first.rates.get? code = second.rates.get? code)
    (amount : Decimal)
    (currency : String) :
    first.toBase amount currency = second.toBase amount currency := by
  have sameRate : first.rate? currency = second.rate? currency := by
    simp only [rate?, sameBase, sameRates]
  simp only [toBase, sameRate, sameBase]

/-! ## Rates in any order -/

/-- All spellings of a code have one rate. -/
def OneRateEach
    (entries : List (String × Decimal)) :
    Prop :=
  ∀ entry ∈ entries, ∀ other ∈ entries,
    normalCode entry.1 = normalCode other.1 → entry.2 = other.2

instance (entries : List (String × Decimal)) :
    Decidable (OneRateEach entries) :=
  inferInstanceAs (Decidable (∀ entry ∈ entries, ∀ other ∈ entries, _ → _))

/-- What is found in a list and what is found in it in another order agree in
all that the candidates agree in. -/
private theorem map_find?_eq_of_perm
    {first second : List α}
    {property : α → Bool}
    {view : α → β}
    (reordered : first.Perm second)
    (agree :
      ∀ item ∈ first, ∀ other ∈ first,
        property item → property other → view item = view other) :
    (first.find? property).map view = (second.find? property).map view := by
  cases found : first.find? property with
  | none =>
      have noneFound : second.find? property = none := by
        rw [List.find?_eq_none] at found ⊢
        intro item member
        exact found item (reordered.mem_iff.mpr member)
      rw [noneFound]
  | some item =>
      have member := List.mem_of_find?_eq_some found
      have holds := List.find?_some found
      cases foundOther : second.find? property with
      | none =>
          exact absurd holds
            (List.find?_eq_none.mp foundOther item
              (reordered.mem_iff.mp member))
      | some other =>
          have otherMember := List.mem_of_find?_eq_some foundOther
          exact congrArg some
            (agree item member other (reordered.mem_iff.mpr otherMember) holds
              (List.find?_some foundOther))

/-- A rate that is set last is the rate of its code. -/
private theorem get?_ofRates_of_last
    (base : String)
    (earlier : List (String × Decimal))
    (entry : String × Decimal)
    (updatedAt : Option Instant) :
    (ofRates base (earlier ++ [entry]) updatedAt).rates.get?
        (normalCode entry.1) =
      some entry.2 := by
  rw [get?_ofRates, List.reverse_concat, List.find?_cons]
  simp

/-- Any of the rates may be set last. -/
private theorem perm_with_last
    {entries : List (String × Decimal)}
    {entry : String × Decimal}
    (member : entry ∈ entries) :
    (entries.erase entry ++ [entry]).Perm entries :=
  (List.perm_append_singleton _ _).trans (List.perm_cons_erase member).symm

/-- A table of some rates, whatever their order: its base, its time and its
codes are theirs, and each of its rates is one of them. -/
structure DrawnFrom
    (base : String)
    (entries : List (String × Decimal))
    (updatedAt : Option Instant)
    (table : RateTable) :
    Prop where
  base_eq : table.base = normalCode base
  updatedAt_eq : table.updatedAt = updatedAt
  code_iff :
    ∀ code,
      code ∈ table.rates.keys ↔
        ∃ entry ∈ entries, normalCode entry.1 = code
  rate_of :
    ∀ code rate,
      table.rates.get? code = some rate →
        ∃ entry ∈ entries, normalCode entry.1 = code ∧ entry.2 = rate

/-- In whichever order rates are taken, the table is drawn from them. -/
theorem drawnFrom_ofRates
    {order entries : List (String × Decimal)}
    (reordered : order.Perm entries)
    (base : String)
    (updatedAt : Option Instant) :
    DrawnFrom base entries updatedAt (ofRates base order updatedAt) where
  base_eq := base_ofRates _ _ _
  updatedAt_eq := updatedAt_ofRates _ _ _
  code_iff := by
    intro code
    rw [← not_iff_not, ← Table.get?_eq_none_iff, get?_ofRates,
      Option.map_eq_none_iff, List.find?_eq_none]
    simp only [List.mem_reverse, decide_eq_true_eq, not_exists, not_and,
      reordered.mem_iff]
  rate_of := by
    intro code rate isRate
    rw [get?_ofRates, Option.map_eq_some_iff] at isRate
    obtain ⟨entry, found, sameRate⟩ := isRate
    have member := List.mem_of_find?_eq_some found
    rw [List.mem_reverse, reordered.mem_iff] at member
    have sameCode := List.find?_some found
    exact ⟨entry, member, by simpa using sameCode, sameRate⟩

/--
Rates that are taken in any order give tables that are alike, and convert alike,
if and only if all spellings of a code have one rate.  Base, time and codes are
the same in any case, and each rate is one of those given for its code.
-/
theorem decoded_alike_iff_oneRateEach
    (base : String)
    (entries : List (String × Decimal))
    (updatedAt : Option Instant) :
    (∀ order : List (String × Decimal),
      order.Perm entries →
        DrawnFrom base entries updatedAt (ofRates base order updatedAt)) ∧
      ((∀ first second : List (String × Decimal),
          first.Perm entries →
            second.Perm entries →
              Alike (ofRates base first updatedAt)
                (ofRates base second updatedAt)) ↔
        OneRateEach entries) := by
  refine ⟨fun order reordered => drawnFrom_ofRates reordered _ _, ?_, ?_⟩
  · -- whichever of two rates is set last is the rate of the code
    intro alike entry member other otherMember sameCode
    have sameRate :=
      (alike _ _ (perm_with_last member)
        (perm_with_last otherMember)).get?_eq (normalCode entry.1)
    rw [get?_ofRates_of_last, sameCode, get?_ofRates_of_last] at sameRate
    exact Option.some.inj sameRate
  · intro oneRateEach first second isOrder isOther
    have sameRates
        (code : String) :
        (ofRates base first updatedAt).rates.get? code =
          (ofRates base second updatedAt).rates.get? code := by
      rw [get?_ofRates, get?_ofRates]
      apply map_find?_eq_of_perm
      · exact (List.reverse_perm _).trans
          ((isOrder.trans isOther.symm).trans (List.reverse_perm _).symm)
      · intro entry member other otherMember isCode otherIsCode
        rw [List.mem_reverse, isOrder.mem_iff] at member otherMember
        rw [decide_eq_true_eq] at isCode otherIsCode
        exact oneRateEach entry member other otherMember
          (isCode.trans otherIsCode.symm)
    have sameBase :
        (ofRates base first updatedAt).base =
          (ofRates base second updatedAt).base := by
      rw [base_ofRates, base_ofRates]
    exact ⟨sameBase, rfl, sameRates, toBase_congr sameBase sameRates⟩

/-- Two spellings of one code and another code. -/
def spelledTwice :
    List (String × Decimal) :=
  [("eur", .hundred), ("jpy", .zero), (" EUR", .hundred)]

theorem decoded_alike_iff_oneRateEach_spelledTwice :
    OneRateEach spelledTwice ∧
      DrawnFrom "usd" spelledTwice none
        (ofRates "usd" spelledTwice.reverse none) ∧
      Alike (ofRates "usd" spelledTwice none)
        (ofRates "usd" spelledTwice.reverse none) := by
  have oneRateEach : OneRateEach spelledTwice := by
    decide +kernel
  have reordered := List.reverse_perm spelledTwice
  obtain ⟨drawn, alike⟩ :=
    decoded_alike_iff_oneRateEach "usd" spelledTwice none
  exact ⟨oneRateEach, drawn _ reordered,
    alike.mpr oneRateEach _ _ (.refl _) reordered⟩

/-- Two spellings of one code with two rates. -/
def twoRatesForEuro :
    List (String × Decimal) :=
  [("eur", .hundred), ("EUR", .one)]

/-- Two rates for one code make two tables: 100 euros are 100 dollars in one and
one dollar in the other. -/
theorem decoding_depends_on_order :
    (twoRatesForEuro.map (·.1)).Nodup ∧
      twoRatesForEuro.reverse.Perm twoRatesForEuro ∧
      ((ofRates "USD" twoRatesForEuro none).toBase .hundred
          "EUR").toOption.map Decimal.toText = some "100" ∧
      ((ofRates "USD" twoRatesForEuro.reverse none).toBase .hundred
          "EUR").toOption.map Decimal.toText = some "1" ∧
      ¬ Alike (ofRates "USD" twoRatesForEuro none)
        (ofRates "USD" twoRatesForEuro.reverse none) := by
  have firstRate :
      (ofRates "USD" twoRatesForEuro none).rates.get? "EUR" = some .one := by
    decide +kernel
  have secondRate :
      (ofRates "USD" twoRatesForEuro.reverse none).rates.get? "EUR" =
        some .hundred := by
    decide +kernel
  refine ⟨by decide +kernel, List.reverse_perm _, by decide +kernel,
    by decide +kernel, ?_⟩
  intro alike
  have sameRate := alike.get?_eq "EUR"
  rw [firstRate, secondRate] at sameRate
  cases sameRate

end NetWorth.RateTable
