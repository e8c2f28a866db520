import Mathlib
import NetWorth.Quote.Fallback
import NetWorth.Proofs.Holding.Lookups

/-!
# Chains of sources

Sources are put together by falling back from one to another, to any depth.
However they are bracketed, the sources at the leaves are asked from left to
right, until one gives an answer for which no other source can make up.
-/

namespace NetWorth

/-- Whether another source may make up for an answer. -/
def PriceAnswer.isUnavailable :
    PriceAnswer → Bool
  | .error (.unavailable _ _) => true
  | _ => false

/-- A source whose calls are noted. -/
def PriceSource.noted
    {World Note : Type}
    (source : PriceSource (StateM World))
    (note : Lookup → Note) :
    PriceSource (StateM (World × List Note)) where
  name :=
    source.name
  price assetClass symbol := do
    let (world, notes) ← get
    let (answer, next) := (source.price assetClass symbol).run world
    set (next, notes ++ [note ⟨assetClass, symbol, answer⟩])
    return answer

/-- Sources put together: one at a leaf, a chain without a second source, and a
chain of two. -/
inductive SourceTree
    (Leaf : Type) where
  | source (leaf : Leaf)
  | alone (primary : SourceTree Leaf)
  | fallback (primary secondary : SourceTree Leaf)

namespace SourceTree

variable {Leaf : Type}

/-- The leaves from left to right. -/
def leaves :
    SourceTree Leaf → List Leaf
  | .source leaf => [leaf]
  | .alone primary => primary.leaves
  | .fallback primary secondary => primary.leaves ++ secondary.leaves

theorem leaves_ne_nil
    (tree : SourceTree Leaf) :
    tree.leaves ≠ [] := by
  induction tree with
  | source leaf => exact List.cons_ne_nil _ _
  | alone primary inductionHypothesis => exact inductionHypothesis
  | fallback primary secondary inductionHypothesis _ =>
      exact List.append_ne_nil_of_left_ne_nil inductionHypothesis _

section Monad

variable {m : Type → Type} [Monad m]

/-- The source that a tree makes of the sources at its leaves. -/
def assemble
    (sources : Leaf → PriceSource m) :
    SourceTree Leaf → PriceSource m
  | .source leaf => sources leaf
  | .alone primary => (primary.assemble sources).fallback none
  | .fallback primary secondary =>
      (primary.assemble sources).fallback (some (secondary.assemble sources))

/-- Goes on to the next leaf as long as the last answer is an unavailable
provider. -/
def askInTurn
    (ask : Leaf → m PriceAnswer)
    (last : PriceAnswer) :
    List Leaf → m PriceAnswer
  | [] => return last
  | leaf :: rest =>
      if last.isUnavailable then
        ask leaf >>= fun answer => askInTurn ask answer rest
      else
        return last

/-- Nobody is asked after a final answer, or when nobody is left. -/
theorem askInTurn_of_ended
    (ask : Leaf → m PriceAnswer)
    {last : PriceAnswer}
    {leaves : List Leaf}
    (ended : last.isUnavailable = true → leaves = []) :
    askInTurn ask last leaves = return last := by
  cases leaves with
  | nil => rfl
  | cons leaf rest =>
      rw [askInTurn, if_neg fun goesOn => List.cons_ne_nil _ _ (ended goesOn)]

variable [LawfulMonad m]

/-- Leaves in two parts are asked one part after the other. -/
theorem askInTurn_append
    (ask : Leaf → m PriceAnswer)
    (last : PriceAnswer)
    (first second : List Leaf) :
    askInTurn ask last (first ++ second) =
      askInTurn ask last first >>= fun answer =>
        askInTurn ask answer second := by
  induction first generalizing last with
  | nil => simp [askInTurn]
  | cons leaf rest inductionHypothesis =>
      by_cases goesOn : last.isUnavailable = true
      · simp [askInTurn, goesOn, inductionHypothesis]
      · have ended (leaves : List Leaf) :
            askInTurn ask last leaves = return last :=
          askInTurn_of_ended ask fun isUnavailable =>
            absurd isUnavailable goesOn
        rw [ended, ended, pure_bind, ended]

/-- A chain without a second source answers as its first one. -/
theorem price_fallback_none
    (primary : PriceSource m)
    (assetClass : AssetClass)
    (symbol : String) :
    (primary.fallback none).price assetClass symbol =
      primary.price assetClass symbol := by
  conv_rhs => rw [← bind_pure (primary.price assetClass symbol)]
  simp only [PriceSource.fallback]
  congr 1
  funext answer
  rcases answer with (_ | _) | _ <;> rfl

omit [LawfulMonad m] in
/-- A chain of two asks the second source after an unavailable provider. -/
theorem price_fallback_some
    (primary secondary : PriceSource m)
    (assetClass : AssetClass)
    (symbol : String) :
    (primary.fallback (some secondary)).price assetClass symbol =
      primary.price assetClass symbol >>= fun answer =>
        if answer.isUnavailable then
          secondary.price assetClass symbol
        else
          return answer := by
  simp only [PriceSource.fallback]
  congr 1
  funext answer
  rcases answer with (_ | _) | _ <;> rfl

/-- A tree asks its leaves in turn.  The induction is on the tree, for whatever
provider has been unavailable before. -/
theorem price_assemble
    (sources : Leaf → PriceSource m)
    (tree : SourceTree Leaf)
    (assetClass : AssetClass)
    (symbol : String)
    {last : PriceAnswer}
    (isUnavailable : last.isUnavailable = true) :
    (tree.assemble sources).price assetClass symbol =
      askInTurn (fun leaf => (sources leaf).price assetClass symbol) last
        tree.leaves := by
  induction tree generalizing last with
  | source leaf => simp [assemble, leaves, askInTurn, isUnavailable]
  | alone primary inductionHypothesis =>
      rw [assemble, price_fallback_none, leaves]
      exact inductionHypothesis isUnavailable
  | fallback primary secondary primaryAsks secondaryAsks =>
      rw [assemble, price_fallback_some, leaves, askInTurn_append,
        ← primaryAsks isUnavailable]
      congr 1
      funext answer
      split
      case isTrue goesOn => exact secondaryAsks goesOn
      case isFalse isFinal =>
        rw [askInTurn_of_ended _ fun goesOn => absurd goesOn isFinal]

/-- Trees with the same leaves behave alike, whatever their brackets. -/
theorem price_assemble_congr
    (sources : Leaf → PriceSource m)
    {tree other : SourceTree Leaf}
    (sameLeaves : other.leaves = tree.leaves)
    (assetClass : AssetClass)
    (symbol : String) :
    (other.assemble sources).price assetClass symbol =
      (tree.assemble sources).price assetClass symbol := by
  have nobody :
      PriceAnswer.isUnavailable (.error (.unavailable "" "")) = true :=
    rfl
  rw [price_assemble sources other _ _ nobody, sameLeaves,
    ← price_assemble sources tree _ _ nobody]

end Monad

section Run

variable
  {World : Type}
  {primary secondary : PriceSource (StateM World)}
  {assetClass : AssetClass}
  {symbol : String}
  {world after : World}
  {answer : PriceAnswer}

/-- After an outage the second source goes on from where the first one left. -/
theorem fallback_run_of_unavailable
    (ran : (primary.price assetClass symbol).run world = (answer, after))
    (isUnavailable : answer.isUnavailable = true) :
    ((primary.fallback (some secondary)).price assetClass symbol).run world =
      (secondary.price assetClass symbol).run after := by
  rw [price_fallback_some, StateT.run_bind, ran]
  change (if answer.isUnavailable then _ else _ : StateM World _).run after = _
  rw [if_pos isUnavailable]

/-- A quote or a refusal of the first source stands. -/
theorem fallback_run_of_final
    (ran : (primary.price assetClass symbol).run world = (answer, after))
    (isFinal : ¬ answer.isUnavailable = true) :
    ((primary.fallback (some secondary)).price assetClass symbol).run world =
      (answer, after) := by
  rw [price_fallback_some, StateT.run_bind, ran]
  change (if answer.isUnavailable then _ else _ : StateM World _).run after = _
  rw [if_neg isFinal]
  rfl

end Run

/-! ## A record of the calls -/

/-- A call of the source at a leaf, with its answer. -/
structure Call
    (Leaf : Type) extends Lookup where
  leaf : Leaf

variable {World : Type}

/-- The source at a leaf, keeping a record of its calls. -/
def observed
    (sources : Leaf → PriceSource (StateM World))
    (leaf : Leaf) :
    PriceSource (StateM (World × List (Call Leaf))) :=
  (sources leaf).noted fun lookup => ⟨lookup, leaf⟩

/--
How leaves have been asked for a price: in their order, each of them once, until
one was available.  The answer is that of the last call, and if it is that of an
unavailable provider, all leaves have been asked.
-/
structure AskedInTurn
    (leaves : List Leaf)
    (assetClass : AssetClass)
    (symbol : String)
    (calls : List (Call Leaf))
    (answer : PriceAnswer) :
    Prop where
  inOrder : calls.map (·.leaf) <+: leaves
  asRequested :
    ∀ call ∈ calls, call.assetClass = assetClass ∧ call.symbol = symbol
  passedOver : ∀ call ∈ calls.dropLast, call.answer.isUnavailable
  answeredByLast : calls.getLast?.map (·.answer) = some answer
  exhausted : answer.isUnavailable → calls.map (·.leaf) = leaves

namespace AskedInTurn

variable
  {leaf : Leaf}
  {rest : List Leaf}
  {assetClass : AssetClass}
  {symbol : String}
  {calls : List (Call Leaf)}
  {answer : PriceAnswer}

/-- A leaf that is the last one, or available, is the only one asked. -/
theorem single
    (isLast : answer.isUnavailable → rest = []) :
    AskedInTurn (leaf :: rest) assetClass symbol
      [⟨⟨assetClass, symbol, answer⟩, leaf⟩] answer where
  inOrder := ⟨rest, rfl⟩
  asRequested call isCall := by
    rw [List.mem_singleton.mp isCall]
    exact ⟨rfl, rfl⟩
  passedOver call isPassed := by cases isPassed
  answeredByLast := rfl
  exhausted isUnavailable := by
    rw [isLast isUnavailable]
    rfl

/-- After an unavailable leaf the others are asked. -/
theorem cons
    (asked : AskedInTurn rest assetClass symbol calls answer)
    {passed : PriceAnswer}
    (isUnavailable : passed.isUnavailable) :
    AskedInTurn (leaf :: rest) assetClass symbol
      (⟨⟨assetClass, symbol, passed⟩, leaf⟩ :: calls) answer := by
  have someCall : calls ≠ [] := by
    rintro rfl
    cases asked.answeredByLast
  refine ⟨?_, ?_, ?_, ?_, fun allUnavailable => ?_⟩
  · exact List.cons_prefix_cons.mpr ⟨rfl, asked.inOrder⟩
  · exact List.forall_mem_cons.mpr ⟨⟨rfl, rfl⟩, asked.asRequested⟩
  · rw [List.dropLast_cons_of_ne_nil someCall]
    exact List.forall_mem_cons.mpr ⟨isUnavailable, asked.passedOver⟩
  · rw [List.getLast?_cons_of_ne_nil someCall]
    exact asked.answeredByLast
  · rw [List.map_cons, asked.exhausted allUnavailable]

/-- An answer for which no other source can make up ends the calls. -/
theorem final_is_last
    {leaves : List Leaf}
    (asked : AskedInTurn leaves assetClass symbol calls answer)
    {call : Call Leaf}
    (isCall : call ∈ calls)
    (isFinal : call.answer.isUnavailable = false) :
    calls.getLast? = some call ∧ call.answer = answer := by
  obtain ⟨earlier, last, rfl⟩ :
      ∃ earlier last, calls = earlier ++ [last] := by
    rcases List.eq_nil_or_concat calls with rfl | ⟨earlier, last, same⟩
    · cases isCall
    · exact ⟨earlier, last, by rw [same, List.concat_eq_append]⟩
  have isLast : call = last := by
    rcases List.mem_append.mp isCall with isEarlier | isLast
    · have isPassed := asked.passedOver call (by simpa using isEarlier)
      rw [isFinal] at isPassed
      cases isPassed
    · exact List.mem_singleton.mp isLast
  have answered := asked.answeredByLast
  rw [List.getLast?_concat, Option.map_some, Option.some.injEq] at answered
  rw [isLast, List.getLast?_concat]
  exact ⟨rfl, answered⟩

end AskedInTurn

section Run

variable
  (sources : Leaf → PriceSource (StateM World))
  (assetClass : AssetClass)
  (symbol : String)

/-- The record has one more call, and nothing else is changed. -/
theorem observed_run
    (leaf : Leaf)
    (world : World)
    (calls : List (Call Leaf)) :
    ((observed sources leaf).price assetClass symbol).run (world, calls) =
      let asked := ((sources leaf).price assetClass symbol).run world
      (asked.1, asked.2,
        calls ++ [⟨⟨assetClass, symbol, asked.1⟩, leaf⟩]) :=
  rfl

/-- After an unavailable provider the next leaf is asked. -/
theorem askInTurn_cons_run
    {State : Type}
    (ask : Leaf → StateM State PriceAnswer)
    {last : PriceAnswer}
    (isUnavailable : last.isUnavailable = true)
    (leaf : Leaf)
    (rest : List Leaf)
    (state : State) :
    (askInTurn ask last (leaf :: rest)).run state =
      let asked := (ask leaf).run state
      (askInTurn ask asked.1 rest).run asked.2 := by
  rw [askInTurn, if_pos isUnavailable]
  rfl

/-- Leaves that are asked in turn leave a record of it, and nothing else is
changed by the record. -/
theorem askInTurn_observed_run
    {leaves : List Leaf}
    (someLeaf : leaves ≠ [])
    {last : PriceAnswer}
    (isUnavailable : last.isUnavailable = true)
    (world : World)
    (before : List (Call Leaf)) :
    ∃ calls answer after,
      (askInTurn (fun leaf => (sources leaf).price assetClass symbol) last
          leaves).run world =
        (answer, after) ∧
      (askInTurn (fun leaf => (observed sources leaf).price assetClass symbol)
          last leaves).run (world, before) =
        (answer, after, before ++ calls) ∧
      AskedInTurn leaves assetClass symbol calls answer := by
  induction leaves generalizing last world before with
  | nil => exact absurd rfl someLeaf
  | cons leaf rest inductionHypothesis =>
      rw [askInTurn_cons_run _ isUnavailable,
        askInTurn_cons_run _ isUnavailable, observed_run]
      rcases ((sources leaf).price assetClass symbol).run world with
        ⟨answer, next⟩
      dsimp only
      by_cases goesOn : answer.isUnavailable = true ∧ rest ≠ []
      · obtain ⟨calls, final, after, ran, observedRan, asked⟩ :=
          inductionHypothesis goesOn.2 goesOn.1 next
            (before ++ [⟨⟨assetClass, symbol, answer⟩, leaf⟩])
        refine ⟨⟨⟨assetClass, symbol, answer⟩, leaf⟩ :: calls, final, after,
          ran, ?_, asked.cons goesOn.1⟩
        rw [observedRan, List.append_assoc]
        rfl
      · have ended : answer.isUnavailable = true → rest = [] := by
          tauto
        rw [askInTurn_of_ended _ ended, askInTurn_of_ended _ ended]
        exact ⟨_, answer, next, rfl, rfl, .single ended⟩

end Run

/--
However a tree is bracketed, its leaves are asked from left to right until one
of them is available, and each of them at most once; so a symbol that one of
them refuses is refused.  Another tree with the same leaves gives the same
answer after the same calls, and so does the tree without a second source.  The
record of the calls changes nothing.
-/
theorem leaves_asked_in_turn
    (sources : Leaf → PriceSource (StateM World))
    {tree other : SourceTree Leaf}
    (sameLeaves : other.leaves = tree.leaves)
    (assetClass : AssetClass)
    (symbol : String)
    (world : World) :
    let run (asked : SourceTree Leaf) :=
      ((asked.assemble sources).price assetClass symbol).run world
    let recordedRun (asked : SourceTree Leaf) :=
      ((asked.assemble (observed sources)).price assetClass symbol).run
        (world, [])
    ∃ calls answer after,
      run tree = (answer, after) ∧
        recordedRun tree = (answer, after, calls) ∧
        AskedInTurn tree.leaves assetClass symbol calls answer ∧
        (∀ call ∈ calls,
          ∀ refusedClass refusedSymbol,
            call.answer = .error (.invalidSymbol refusedClass refusedSymbol) →
              calls.getLast? = some call ∧ answer = call.answer) ∧
        (run other = run tree ∧ recordedRun other = recordedRun tree) ∧
        run (.alone tree) = run tree ∧
        recordedRun (.alone tree) = recordedRun tree := by
  have nobody :
      PriceAnswer.isUnavailable (.error (.unavailable "" "")) = true :=
    rfl
  obtain ⟨calls, answer, after, ran, recordedRan, asked⟩ :=
    askInTurn_observed_run sources assetClass symbol tree.leaves_ne_nil nobody
      world []
  rw [← price_assemble sources tree assetClass symbol nobody] at ran
  rw [← price_assemble (observed sources) tree assetClass symbol nobody,
    List.nil_append] at recordedRan
  refine ⟨calls, answer, after, ran, recordedRan, asked, ?_, ?_, ?_⟩
  · intro call isCall refusedClass refusedSymbol refused
    have isFinal : call.answer.isUnavailable = false := by
      rw [refused]
      rfl
    obtain ⟨isLast, sameAnswer⟩ := asked.final_is_last isCall isFinal
    exact ⟨isLast, sameAnswer.symm⟩
  · dsimp only
    rw [price_assemble_congr sources sameLeaves,
      price_assemble_congr (observed sources) sameLeaves]
    exact ⟨rfl, rfl⟩
  · dsimp only
    rw [assemble, assemble, price_fallback_none, price_fallback_none]
    exact ⟨rfl, rfl⟩

/-! ## A refusal in the middle -/

/-- Four sources in a world that counts their calls: two are down, one refuses
the symbol, and one would not. -/
def sampleSources
    (leaf : Fin 4) :
    PriceSource (StateM Nat) where
  name :=
    "sample"
  price assetClass symbol := do
    modify (· + 1)
    return match leaf with
      | 0 => .error (.unavailable "first" "down")
      | 1 => .error (.unavailable "second" "down")
      | 2 => .error (.invalidSymbol assetClass symbol)
      | 3 => .ok ⟨assetClass, symbol, symbol, .one, "USD", .epoch, "sample"⟩

/-- The second source is bracketed with those that follow it. -/
def rightTree :
    SourceTree (Fin 4) :=
  .fallback (.source 0)
    (.fallback (.alone (.source 1)) (.fallback (.source 2) (.source 3)))

/-- The second source is bracketed with the first. -/
def leftTree :
    SourceTree (Fin 4) :=
  .fallback (.fallback (.fallback (.source 0) (.source 1))
    (.alone (.source 2))) (.source 3)

/-- A refusal from the inside of either tree keeps the last source from being
asked. -/
theorem leaves_asked_in_turn_refused :
    leftTree.leaves = rightTree.leaves ∧
      ∃ calls,
        AskedInTurn rightTree.leaves .stock "NONE" calls
            (.error (.invalidSymbol .stock "NONE")) ∧
          calls.map (·.leaf) = [0, 1, 2] ∧
          ((leftTree.assemble sampleSources).price .stock "NONE").run 0 =
            (.error (.invalidSymbol .stock "NONE"), 3) := by
  have sameLeaves : leftTree.leaves = rightTree.leaves :=
    rfl
  obtain ⟨calls, answer, after, ran, recordedRan, asked, -, sameRun, -⟩ :=
    leaves_asked_in_turn sampleSources sameLeaves .stock "NONE" 0
  cases ran
  cases recordedRan
  exact ⟨sameLeaves, _, asked, rfl, sameRun.1⟩

end SourceTree

end NetWorth
