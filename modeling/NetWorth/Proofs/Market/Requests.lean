import Mathlib
import NetWorth.Proofs.Market.Currency
import NetWorth.Proofs.Web.Query

/-!
# What the markets are asked for

The American market and the crypto market are sent the symbol in a field that is
encoded, and read it as it was.  The relay of the Taiwan market is sent the
address of the exchange in such a field, and reads it as it was, too.  But the
symbol is put into that address as it is.  So the exchange reads the symbol that
was meant if, and only if, the symbol is plain: there is nothing in it that ends
a field or an address, nothing that is dropped from an address, and nothing that
reads as something else.
-/

namespace NetWorth

namespace Market

open Web.Encoding Web.Query

/-- A symbol that reads as itself in the query of an address. -/
structure IsPlain (symbol : String) :
    Prop where
  noDelimiter :
    ∀ c ∈ symbol.toList, c ∉ ['\t', '\n', '\r', '#', '&', '+']
  noEscape :
    ¬ HasEscape symbol.toList

/-- An address by which the exchange is asked for a symbol at a time, and for
nothing else. -/
structure AsksFor
    (address symbol : String)
    (millis : Int) :
    Prop where
  noFragment :
    fragment? address = none
  asked :
    fields address =
      [(some "ex_ch", some ("tse_" ++ symbol ++ ".tw")),
        (some "_", some (toString millis))]

/-! ## The time -/

section Time

variable
  (millis : Int)

/-- An integer is written in digits, with a sign in front if it is negative. -/
private theorem isDigit_of_mem_toString
    {c : Char}
    (isWritten : c ∈ (toString millis).toList) :
    c.isDigit ∨ c = '-' := by
  have isDigit_of_mem_repr {k : Nat} (isWritten : c ∈ k.repr.toList) :
      c.isDigit := by
    rw [Nat.toList_repr] at isWritten
    exact Nat.isDigit_of_mem_toDigits (by decide) (by decide) isWritten
  rw [Int.toString_eq_repr, Int.repr_eq_if] at isWritten
  split at isWritten
  · exact .inl (isDigit_of_mem_repr isWritten)
  · rw [String.toList_append, List.mem_append] at isWritten
    rcases isWritten with isSign | isWritten
    · exact .inr (List.mem_singleton.mp isSign)
    · exact .inl (isDigit_of_mem_repr isWritten)

/-- There is nothing else in an integer. -/
private theorem not_mem_toString
    {c : Char}
    (notPart : c.isDigit = false ∧ c ≠ '-') :
    c ∉ (toString millis).toList := by
  intro isWritten
  rcases isDigit_of_mem_toString millis isWritten with isDigit | isSign
  · rw [notPart.1] at isDigit
    cases isDigit
  · exact notPart.2 isSign

/-- Nothing of an integer is dropped at the end of an address. -/
private theorem lt_toNat_of_mem_toString
    {c : Char}
    (isWritten : c ∈ (toString millis).toList) :
    0x20 < c.toNat := by
  rcases isDigit_of_mem_toString millis isWritten with isDigit | rfl
  · exact lt_of_lt_of_le (by decide) (Char.isDigit_iff_toNat.mp isDigit).1
  · decide

/-- An integer reads as itself. -/
private theorem fieldText?_toString :
    fieldText? (toString millis).toList = some (toString millis) :=
  fieldText?_of_not_mem (not_mem_toString millis (by decide))
    (not_mem_toString millis (by decide))

end Time

/-! ## The name of a listing -/

/-- The name by which the exchange knows the listing of a symbol. -/
private def listed (symbol : String) :
    String :=
  "tse_" ++ symbol ++ ".tw"

section Listed

variable
  (symbol : String)

private theorem toList_listed :
    (listed symbol).toList =
      "tse_".toList ++ (symbol.toList ++ ".tw".toList) := by
  rw [listed, String.toList_append, String.toList_append, List.append_assoc]

/-- The characters of a symbol are in its name. -/
private theorem mem_listed
    {symbol : String}
    {c : Char}
    (isChar : c ∈ symbol.toList) :
    c ∈ (listed symbol).toList := by
  rw [toList_listed]
  exact List.mem_append_right _ (List.mem_append_left _ isChar)

/-- The escapes in the name are those of the symbol. -/
private theorem hasEscape_listed_iff :
    HasEscape (listed symbol).toList ↔ HasEscape symbol.toList := by
  have sameText :
      (listed symbol).toList =
        "tse".toList ++ '_' :: (symbol.toList ++ '.' :: "tw".toList) := by
    rw [toList_listed]
    rfl
  have notInFront : ¬ HasEscape "tse".toList :=
    not_hasEscape_of_not_mem (by decide)
  have notAtEnd : ¬ HasEscape "tw".toList :=
    not_hasEscape_of_not_mem (by decide)
  rw [sameText, hasEscape_append_cons_iff rfl (by decide),
    hasEscape_append_cons_iff rfl (by decide), or_iff_right notInFront,
    or_iff_left notAtEnd]

end Listed

/-- A delimiter in the name of a listing is in its symbol. -/
private theorem not_mem_listed
    {symbol : String}
    {c : Char}
    (notOwn : c ∉ "tse_.tw".toList)
    (absent : c ∉ symbol.toList) :
    c ∉ (listed symbol).toList := by
  rw [toList_listed, List.mem_append, List.mem_append]
  rintro (inFront | inSymbol | inBack)
  · exact notOwn (List.mem_append_left ".tw".toList inFront)
  · exact absent inSymbol
  · exact notOwn (List.mem_append_right "tse_".toList inBack)

/-! ## The address of the exchange -/

/-- The address of the exchange for a symbol at a time. -/
private def addressAt
    (symbol : String)
    (millis : Int) :
    String :=
  "https://mis.twse.com.tw/stock/api/getStockInfo.jsp?ex_ch=tse_" ++ symbol ++
    ".tw&_=" ++ toString millis

/-- The query by which the exchange is asked, as it is written. -/
private def asked
    (symbol : String)
    (millis : Int) :
    List Char :=
  "ex_ch".toList ++ '=' :: (listed symbol).toList ++
    '&' :: ("_".toList ++ '=' :: (toString millis).toList)

private theorem asked_eq
    (symbol : String)
    (millis : Int) :
    asked symbol millis =
      "ex_ch".toList ++ '=' :: (listed symbol).toList ++
        '&' :: ("_".toList ++ '=' :: (toString millis).toList) :=
  rfl

section Asked

variable
  (symbol : String)
  (millis : Int)

private theorem toList_addressAt :
    (addressAt symbol millis).toList =
      "https://mis.twse.com.tw/stock/api/getStockInfo.jsp".toList ++
        '?' :: asked symbol millis := by
  have opening :
      "https://mis.twse.com.tw/stock/api/getStockInfo.jsp?ex_ch=tse_".toList =
        "https://mis.twse.com.tw/stock/api/getStockInfo.jsp".toList ++
          '?' :: ("ex_ch".toList ++ '=' :: "tse_".toList) := by
    decide +kernel
  have closing :
      ".tw&_=".toList = ".tw".toList ++ '&' :: ("_".toList ++ ['=']) :=
    rfl
  have toList_append (first second third fourth : String) :
      (first ++ second ++ third ++ fourth).toList =
        first.toList ++ second.toList ++ third.toList ++ fourth.toList := by
    simp only [String.toList_append]
  calc
    (addressAt symbol millis).toList
      = "https://mis.twse.com.tw/stock/api/getStockInfo.jsp?ex_ch=tse_".toList ++
          symbol.toList ++ ".tw&_=".toList ++ (toString millis).toList :=
        toList_append _ symbol _ _
    _ = _ := by
        rw [opening, closing, asked_eq, toList_listed]
        generalize "https://mis.twse.com.tw/stock/api/getStockInfo.jsp".toList =
          server
        simp only [List.append_assoc, List.cons_append, List.nil_append]

private theorem getLast?_asked
    (c : Char)
    (isLast : (asked symbol millis).getLast? = some c) :
    0x20 < c.toNat := by
  have endsInTime (front time : List Char) :
      (front ++ '&' :: ("_".toList ++ '=' :: time)).getLast? =
        some (time.getLast?.getD '=') := by
    simp [List.getLast?_cons]
  rw [asked_eq, endsInTime, Option.some.injEq] at isLast
  rw [← isLast]
  cases isLast : (toString millis).toList.getLast? with
  | none => decide
  | some c => exact lt_toNat_of_mem_toString millis (List.mem_of_getLast? isLast)

/-- The query is read from what was written, up to a number sign. -/
private theorem query_addressAt :
    query (addressAt symbol millis) =
      ((asked symbol millis).filter Counts).takeWhile (· != '#') :=
  query_eq (toList_addressAt symbol millis) (by decide) (by decide)
    (getLast?_asked symbol millis)

/-- The delimiters in the query are those in the symbol. -/
private theorem mem_asked_iff
    {symbol : String}
    {c : Char}
    (isDelimiter : c ∈ ['\t', '\n', '\r', '#']) :
    c ∈ asked symbol millis ↔ c ∈ symbol.toList := by
  obtain ⟨notOwn, notInName, notInTime⟩ :
      c ∉ "ex_ch=&_".toList ∧ c ∉ "tse_.tw".toList ∧
        c.isDigit = false ∧ c ≠ '-' := by
    simp only [List.mem_cons, List.not_mem_nil, or_false] at isDelimiter
    rcases isDelimiter with rfl | rfl | rfl | rfl <;> decide
  have apart (name time : List Char) :
      c ∈ "ex_ch".toList ++ '=' :: name ++ '&' :: ("_".toList ++ '=' :: time) ↔
        c ∈ name ∨ c ∈ time := by
    simp_all
  rw [asked_eq, apart, or_iff_left (not_mem_toString millis notInTime)]
  refine ⟨fun inName => ?_, mem_listed⟩
  by_contra absent
  exact not_mem_listed notInName absent inName

/-- What counts of the name of a listing. -/
private def countedName :
    List Char :=
  "tse_".toList ++ (symbol.toList.filter Counts ++ ".tw".toList)

/-- Without a number sign, the query names the listing by what counts of it. -/
private theorem exists_query_addressAt
    (noSign : '#' ∉ symbol.toList) :
    ∃ others,
      query (addressAt symbol millis) =
        "ex_ch".toList ++ '=' :: (countedName symbol ++ '&' :: others) := by
  have noSign : '#' ∉ (asked symbol millis).filter Counts := fun isSign =>
    noSign ((mem_asked_iff millis (by decide)).mp (List.mem_of_mem_filter isSign))
  have allCount :
      "ex_ch".toList.filter Counts = "ex_ch".toList ∧
        "tse_".toList.filter Counts = "tse_".toList ∧
          ".tw".toList.filter Counts = ".tw".toList ∧
            Counts '=' = true ∧ Counts '&' = true := by
    decide
  have filtered (others : List Char) :
      ("ex_ch".toList ++ '=' :: (listed symbol).toList ++
          '&' :: others).filter Counts =
        "ex_ch".toList ++
          '=' :: (countedName symbol ++ '&' :: others.filter Counts) := by
    simp only [toList_listed, List.filter_append, List.filter_cons, allCount,
      if_true, countedName, List.append_assoc, List.cons_append]
  rw [query_addressAt, takeWhile_of_not_mem noSign, asked_eq, filtered]
  exact ⟨_, rfl⟩

/-- There is no fragment if, and only if, the symbol has no number sign. -/
private theorem fragment?_addressAt :
    fragment? (addressAt symbol millis) = none ↔ '#' ∉ symbol.toList := by
  rw [fragment?_eq_none_iff (toList_addressAt symbol millis) (by decide)
    (by decide) (getLast?_asked symbol millis), mem_asked_iff millis (by decide)]

end Asked

/-- A plain symbol is the one that the exchange is asked for. -/
private theorem asksFor_of_isPlain
    {symbol : String}
    (plain : IsPlain symbol)
    (millis : Int) :
    AsksFor (addressAt symbol millis) symbol millis := by
  have absent {c : Char} (isDelimiter : c ∈ ['\t', '\n', '\r', '#', '&', '+']) :
      c ∉ symbol.toList := fun isChar =>
    plain.noDelimiter c isChar isDelimiter
  have noSign : '#' ∉ asked symbol millis :=
    mt (mem_asked_iff millis (by decide)).mp (absent (by decide))
  have allCount : (asked symbol millis).filter Counts = asked symbol millis := by
    refine filter_counts_eq_self fun c isDropped => ?_
    rw [mem_asked_iff millis (List.mem_append_left ['#'] isDropped)]
    exact absent (List.mem_append_left ['#', '&', '+'] isDropped)
  have noSeparator : '&' ∉ (listed symbol).toList :=
    not_mem_listed (by decide) (absent (by decide))
  have nameRead : fieldText? (listed symbol).toList = some (listed symbol) := by
    rw [fieldText?_eq_self_iff, hasEscape_listed_iff]
    exact ⟨not_mem_listed (by decide) (absent (by decide)), plain.noEscape⟩
  constructor
  case noFragment =>
    exact (fragment?_addressAt symbol millis).mpr (absent (by decide))
  case asked =>
    rw [fields, query_addressAt, allCount, takeWhile_of_not_mem noSign, asked_eq,
      fieldsOf_append (by decide) (by decide) noSeparator,
      fieldsOf_single (by decide) (by decide)
        (not_mem_toString millis (by decide)),
      fieldText?_of_not_mem (s := "ex_ch") (by decide) (by decide), nameRead,
      fieldText?_of_not_mem (s := "_") (by decide) (by decide),
      fieldText?_toString]
    rfl

/-- The exchange is asked for the symbol that was meant only if it is plain. -/
private theorem isPlain_of_asksFor
    {symbol : String}
    {millis : Int}
    (asksFor : AsksFor (addressAt symbol millis) symbol millis) :
    IsPlain symbol := by
  have noSign : '#' ∉ symbol.toList :=
    (fragment?_addressAt symbol millis).mp asksFor.noFragment
  obtain ⟨others, isQuery⟩ := exists_query_addressAt symbol millis noSign
  -- What is read as the name is cut out of what was written for it.
  let name := countedName symbol
  let part := name.takeWhile (· != '&')
  have isRead : fieldText? part = some (listed symbol) := by
    have isFirst := congrArg List.head? asksFor.asked
    rw [fields, isQuery, head?_fieldsOf (by decide) (by decide),
      takeWhile_append_cons, List.head?_cons, Option.some.injEq,
      Prod.mk.injEq] at isFirst
    exact isFirst.2
  have nameIsPart : name.Sublist (listed symbol).toList := by
    rw [toList_listed]
    exact (List.filter_sublist.append_right _).append_left _
  have isPart : part.Sublist name := List.takeWhile_sublist _
  -- It reads as the name only if it is all of it, and nothing else is read in it.
  obtain ⟨isWhole, noPlus, noEscape⟩ :=
    (fieldText?_eq_some_iff_of_sublist (isPart.trans nameIsPart)).mp isRead
  have nameIsWhole : name = (listed symbol).toList :=
    nameIsPart.antisymm (isWhole ▸ isPart)
  have allCount : symbol.toList.filter Counts = symbol.toList := by
    rw [toList_listed] at nameIsWhole
    exact List.append_cancel_right (List.append_cancel_left nameIsWhole)
  have inPart {c : Char} (isChar : c ∈ symbol.toList) : c ∈ part :=
    isWhole ▸ mem_listed isChar
  refine ⟨fun c isChar isDelimiter => ?_, ?_⟩
  · simp only [List.mem_cons, List.not_mem_nil, or_false] at isDelimiter
    have counts := List.filter_eq_self.mp allCount c isChar
    rcases isDelimiter with rfl | rfl | rfl | rfl | rfl | rfl
    · cases counts
    · cases counts
    · cases counts
    · exact noSign isChar
    · cases List.mem_takeWhile_imp (inPart isChar)
    · exact noPlus (inPart isChar)
  · rwa [isWhole, hasEscape_listed_iff] at noEscape

/-! ## The request to the relay -/

/-- A delimiter in the address of a service is in the address that its path is
added to. -/
private theorem not_mem_path
    {address path : String}
    {c : Char}
    (absent : c ∉ address.toList)
    (notOwn : c ∉ path.toList) :
    c ∉ (dropSlashes address ++ path).toList := by
  rw [String.toList_append, List.mem_append, dropSlashes, String.toList_ofList,
    List.mem_reverse]
  rintro (isKept | isOwn)
  · have isKept := (List.dropWhile_sublist _).subset isKept
    exact absent (List.mem_reverse.mp isKept)
  · exact notOwn isOwn

section Feeds

variable
  (symbol : String)
  (now : Instant)

/-- The relay is sent the address of the exchange in one field, whatever the
symbol is. -/
theorem TaiwanFeed.fields_request
    {feed : TaiwanFeed}
    (noMark : '?' ∉ feed.address.toList)
    (noSign : '#' ∉ feed.address.toList) :
    fragment? (feed.request symbol now).address = none ∧
      fields (feed.request symbol now).address =
        [(some "url", some (exchangeAddress symbol now))] := by
  have sameText :
      (feed.request symbol now).address.toList =
        (dropSlashes feed.address ++ "/raw").toList ++
          '?' :: ((percent "url").toList ++
            '=' :: (percent (exchangeAddress symbol now)).toList) := by
    have field :
        "/raw?url=".toList =
          "/raw".toList ++ '?' :: ((percent "url").toList ++ ['=']) := by
      decide +kernel
    have toList_append (first second third : String) :
        (first ++ second ++ third).toList =
          first.toList ++ (second.toList ++ third.toList) := by
      simp only [String.toList_append, List.append_assoc]
    refine (toList_append _ _ _).trans ?_
    rw [field, String.toList_append]
    simp only [List.append_assoc, List.cons_append, List.nil_append]
  exact fields_percent sameText (not_mem_path noMark (by decide))
    (not_mem_path noSign (by decide))

/-- The American market reads the symbol and the key as they were, whatever they
are. -/
theorem AmericanFeed.fields_request
    {feed : AmericanFeed}
    (noMark : '?' ∉ feed.address.toList)
    (noSign : '#' ∉ feed.address.toList)
    (key : String) :
    fragment? (feed.request key symbol).address = none ∧
      fields (feed.request key symbol).address =
        [(some "symbol", some symbol), (some "apikey", some key)] :=
  fields_withQuery (not_mem_path noMark (by decide))
    (not_mem_path noSign (by decide)) _

/-- The crypto market reads the pair as it was, whatever the symbol is. -/
theorem CryptoFeed.fields_request
    {feed : CryptoFeed}
    (noMark : '?' ∉ feed.address.toList)
    (noSign : '#' ∉ feed.address.toList) :
    fragment? (feed.request symbol).address = none ∧
      fields (feed.request symbol).address =
        [(some "symbol", some (symbol ++ coin))] :=
  fields_withQuery (not_mem_path noMark (by decide))
    (not_mem_path noSign (by decide)) _

end Feeds

namespace Exchange

/--
A stock that is listed in Taiwan is asked for in one request, whatever the
spelling of its symbol.  The relay reads the address of the exchange in it.  The
exchange reads the symbol and the time in its address, and nothing else, if, and
only if, the symbol is plain.
-/
theorem asks_for_symbol_iff_isPlain
    {World : Type}
    (exchange : Exchange)
    (web : Web.Connection (StateM World))
    {symbol : String}
    (isTaiwanese : (normalCode symbol).toList.head?.any Char.isDigit = true)
    (world : World) :
    let code := normalCode symbol
    let now := (web.clock.now.run world).1
    let request := exchange.taiwan.request code now
    let relay := exchange.taiwan.address
    let upstream := TaiwanFeed.exchangeAddress code now
    let encoded := Web.Encoding.percent upstream
    (∃ answer after outcome,
      ((exchange.source web).price .stock symbol).run world = (answer, after) ∧
        ((exchange.source (notedWeb web)).price .stock symbol).run (world, []) =
          (answer, after, [.sent request outcome])) ∧
      request.address =
          Web.Encoding.dropSlashes relay ++ "/raw?url=" ++ encoded ∧
        decodeText? encoded.toList = some upstream ∧
        ('?' ∉ relay.toList → '#' ∉ relay.toList →
          fragment? request.address = none ∧
            fields request.address = [(some "url", some upstream)]) ∧
        (AsksFor upstream code now.totalMillis ↔ IsPlain code) := by
  intro code now request relay upstream encoded
  have isListed : isTaiwanListed symbol = true := by
    rwa [isTaiwanListed_eq]
  have notEmpty : normalCode symbol ≠ "" := by
    intro empty
    rw [empty] at isTaiwanese
    cases isTaiwanese
  refine ⟨?sent, rfl, decodeText?_percent upstream,
    TaiwanFeed.fields_request code now,
    isPlain_of_asksFor, fun plain => asksFor_of_isPlain plain _⟩
  case sent =>
    rw [price_source exchange web .stock notEmpty,
      price_source exchange (notedWeb web) .stock notEmpty]
    simp only [request?, if_pos isListed]
    exact ⟨_, _, _, rfl, rfl⟩

/-- The exchange is asked for a fund by its plain symbol. -/
theorem asks_for_symbol_iff_isPlain_fund :
    (normalCode " 00631l").toList.head?.any Char.isDigit = true ∧
      (∃ answer outcome,
        (((standard none).source (notedWeb (sampleWeb ⟨503, .empty⟩))).price
            .stock " 00631l").run ((), []) =
          (answer, (),
            [.sent (TaiwanFeed.standard.request "00631L" .epoch) outcome])) ∧
        fields (TaiwanFeed.standard.request "00631L" .epoch).address =
            [(some "url", some (TaiwanFeed.exchangeAddress "00631L" .epoch))] ∧
          AsksFor (TaiwanFeed.exchangeAddress "00631L" .epoch) "00631L" 0 := by
  have isTaiwanese :
      (normalCode " 00631l").toList.head?.any Char.isDigit = true := by
    decide
  have isCode : normalCode " 00631l" = "00631L" := by
    decide
  have isPlain : IsPlain "00631L" :=
    ⟨by simp, not_hasEscape_of_not_mem (by decide)⟩
  obtain ⟨⟨answer, after, outcome, -, asked⟩, -, -, relayed, asksFor_iff⟩ :=
    asks_for_symbol_iff_isPlain (standard none) (sampleWeb ⟨503, .empty⟩)
      isTaiwanese ()
  rw [isCode] at asked relayed asksFor_iff
  exact ⟨isTaiwanese, ⟨answer, outcome, asked⟩,
    (relayed (by decide) (by decide)).2, asksFor_iff.mpr isPlain⟩

/-- A symbol that is not plain: the exchange is asked for another one. -/
theorem asks_for_another_symbol :
    (normalCode "2%3330").toList.head?.any Char.isDigit = true ∧
      (∃ answer outcome,
        (((standard none).source (notedWeb (sampleWeb ⟨503, .empty⟩))).price
            .stock "2%3330").run ((), []) =
          (answer, (),
            [.sent (TaiwanFeed.standard.request "2%3330" .epoch) outcome])) ∧
        fields (TaiwanFeed.standard.request "2%3330" .epoch).address =
            [(some "url", some (TaiwanFeed.exchangeAddress "2%3330" .epoch))] ∧
          fields (TaiwanFeed.exchangeAddress "2%3330" .epoch) =
              [(some "ex_ch", some "tse_2330.tw"), (some "_", some "0")] ∧
            "tse_2330.tw" ≠ "tse_" ++ normalCode "2%3330" ++ ".tw" := by
  refine ⟨by decide, ⟨_, _, rfl⟩, ?_, ?_, by decide⟩
  · exact (TaiwanFeed.fields_request "2%3330" .epoch (by decide) (by decide)).2
  · decide +kernel

end Exchange

end Market

end NetWorth
