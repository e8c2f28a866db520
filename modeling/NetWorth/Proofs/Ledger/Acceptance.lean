import Mathlib
import NetWorth.Proofs.Ledger.ClosedForm

/-!
# Which ledgers are accepted

A ledger whose groups fit the range of decimals is accepted exactly if its
trades are sound and no group ever sells more than it has bought.  Any other
ledger is refused for the first offence in the smallest group that has one,
and never because a number leaves the range.
-/

namespace NetWorth.Ledger

variable {trades : List Trade}

/-- All groups are acceptable if all trades are sound and all groups are
solvent. -/
theorem forall_acceptable_iff :
    (∀ key, Acceptable (group trades key)) ↔
      (∀ trade ∈ trades, trade.Sound) ∧
        ∀ key, Solvent (group trades key) := by
  constructor
  · intro acceptable
    refine ⟨fun trade member => ?_, fun key => (acceptable key).solvent⟩
    obtain ⟨entry, inGroup, rfl⟩ := exists_mem_group member
    exact (acceptable _).sound entry inGroup
  · rintro ⟨sound, solvent⟩ key
    refine ⟨fun entry inGroup => ?_, solvent key⟩
    exact sound _ (List.mem_of_getElem? (mem_group.mp inGroup).1)

/-- A group that fits can be replayed exactly if its history is acceptable. -/
theorem exists_replayed_iff
    {key : GroupKey}
    (fits : FitsExactly abs (group trades key)) :
    (∃ position, replayed trades key = .ok position) ↔
      Acceptable (group trades key) := by
  rcases replay_empty_cases key fits with
      ⟨acceptable, final, replays, -⟩ | ⟨notAcceptable, error, refused, -⟩
  · exact iff_of_true ⟨final, replays⟩ acceptable
  · refine iff_of_false ?_ notAcceptable
    rintro ⟨position, replays⟩
    rw [replayed, refused] at replays
    cases replays

/-- A group that fits is refused for its first offence. -/
theorem firstOffence_of_replayed
    {key : GroupKey}
    {error : LedgerError}
    (fits : FitsExactly abs (group trades key))
    (refused : replayed trades key = .error error) :
    FirstOffence key (group trades key) error := by
  rcases replay_empty_cases key fits with
      ⟨-, final, replays, -⟩ | ⟨-, first, firstRefused, offence⟩
  · rw [replayed, replays] at refused
    cases refused
  · rw [replayed, firstRefused] at refused
    injection refused with sameError
    rw [← sameError]
    exact offence

/-- Leaving the range of decimals is no offence. -/
theorem FirstOffence.ne_overflow
    {key failing : GroupKey}
    {entries : List Entry}
    {error : LedgerError}
    {tradeId : String}
    (offence : FirstOffence key entries error) :
    error ≠ .overflow failing tradeId := by
  obtain ⟨earlier, entry, later, -, -, reason⟩ := offence
  cases reason <;> simp

/--
Acceptance: a ledger that fits is accepted exactly if its trades are sound and
its groups are solvent.  If it is refused, it is for the first offence of a
group before which all groups are acceptable, and never for an overflow.
-/
theorem positions_accepted_iff
    (fits : ∀ key, FitsExactly abs (group trades key)) :
    ((∃ found, positions trades = .ok found) ↔
      (∀ trade ∈ trades, trade.Sound) ∧
        ∀ key, Solvent (group trades key)) ∧
    (∀ error,
      positions trades = .error error →
        ∃ key,
          FirstOffence key (group trades key) error ∧
            ∀ other, compare other key = .lt →
              Acceptable (group trades other)) ∧
    ∀ key tradeId, positions trades ≠ .error (.overflow key tradeId) := by
  have firstOffence
      (error : LedgerError)
      (refused : positions trades = .error error) :
      ∃ key,
        FirstOffence key (group trades key) error ∧
          ∀ other, compare other key = .lt →
            Acceptable (group trades other) := by
    obtain ⟨key, failed, smaller⟩ := positions_eq_error refused
    exact ⟨key, firstOffence_of_replayed (fits key) failed,
      fun other before =>
        (exists_replayed_iff (fits other)).mp (smaller other before)⟩
  refine ⟨?_, firstOffence, ?_⟩
  · rw [← forall_acceptable_iff]
    constructor
    · rintro ⟨found, accepted⟩ key
      exact (exists_replayed_iff (fits key)).mp
        (exists_replayed accepted key)
    · intro acceptable
      exact exists_positions fun key =>
        (exists_replayed_iff (fits key)).mpr (acceptable key)
  · intro key tradeId refused
    obtain ⟨failing, offence, -⟩ := firstOffence _ refused
    exact offence.ne_overflow rfl

/-! ## A sale before its purchase -/

/--
Three shares are sold when only one has been bought, although more are bought
later; the crypto group has an offence too.
-/
def earlySale :
    List Trade :=
  [sampleTrade .buy .crypto "btc" .zero .hundred 1,
    sampleTrade .sell .stock "AAPL" (sampleDecimal 3 0) .one 2,
    sampleTrade .buy .stock "Aapl" .hundred .one 3,
    sampleTrade .buy .stock " aapl" .one .one 1]

/-- The sale asks for 3 where 1 is held, and so falls short by 2. -/
def earlySaleError :
    LedgerError :=
  .insufficientHolding ⟨.stock, "AAPL", "USD"⟩ (sampleDecimal 3 0) .one
    (sampleDecimal 2 0)

private theorem keys_earlySale :
    keys earlySale =
      [⟨.stock, "AAPL", "USD"⟩, ⟨.crypto, "BTC", "USD"⟩] := by
  cbv

private theorem group_earlySale_stock :
    group earlySale ⟨.stock, "AAPL", "USD"⟩ =
      [⟨3, earlySale[3]⟩, ⟨1, earlySale[1]⟩, ⟨2, earlySale[2]⟩] := by
  cbv

private theorem group_earlySale_crypto :
    group earlySale ⟨.crypto, "BTC", "USD"⟩ =
      [⟨0, earlySale[0]⟩] := by
  cbv

private theorem positions_earlySale :
    positions earlySale = .error earlySaleError := by
  have stock :
      replay (.empty ⟨.stock, "AAPL", "USD"⟩)
          [⟨3, earlySale[3]⟩, ⟨1, earlySale[1]⟩, ⟨2, earlySale[2]⟩] =
        .error earlySaleError := by
    decide +kernel
  rw [positions, allPositions, keys_earlySale]
  simp only [List.mapM_cons, group_earlySale_stock, stock]
  rfl

private theorem earlySale_fits
    (key : GroupKey) :
    FitsExactly abs (group earlySale key) := by
  apply fitsExactly_group
  intro listed isKey
  rw [keys_earlySale, List.mem_pair] at isKey
  rcases isKey with rfl | rfl
  · rw [group_earlySale_stock]
    exact ⟨by decide, by decide +kernel, by decide +kernel⟩
  · rw [group_earlySale_crypto]
    exact ⟨by decide, by decide +kernel, by decide +kernel⟩

/-- The stock comes first, so its early sale is what the ledger is refused
for. -/
theorem positions_accepted_iff_earlySale :
    (∀ key, FitsExactly abs (group earlySale key)) ∧
      positions earlySale = .error earlySaleError ∧
      (∃ key,
        FirstOffence key (group earlySale key) earlySaleError ∧
          ∀ other, compare other key = .lt →
            Acceptable (group earlySale other)) ∧
      ¬ ((∀ trade ∈ earlySale, trade.Sound) ∧
        ∀ key, Solvent (group earlySale key)) := by
  obtain ⟨acceptedIff, refusal, -⟩ := positions_accepted_iff earlySale_fits
  refine ⟨earlySale_fits, positions_earlySale,
    refusal _ positions_earlySale, ?_⟩
  rw [← acceptedIff]
  rintro ⟨found, accepted⟩
  rw [positions_earlySale] at accepted
  cases accepted

end NetWorth.Ledger
