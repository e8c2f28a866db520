import NetWorth.Json.Token
/-!
# Reading JSON

Assembles tokens into a value with a stack of the containers that are still open.  Nothing may
follow the value.  Where a value is decoded, only the parts that the decoder looks at have to be
legible; where it is parsed for its own sake every part counts, and containers nest to a limited
depth.
-/

namespace NetWorth.Json

namespace Reading

/-- A container under way, its contents in reverse; `member` waits for the value of a name. -/
inductive Frame where
  | items (reversed : List Json)
  | members (reversed : List (Option String × Json))
  | member (reversed : List (Option String × Json)) (name : Option String)

/-- What the next token may be. -/
inductive Mode where
  /-- A value. -/
  | value
  /-- A value or the end of an array. -/
  | itemOrEnd
  /-- A name or the end of an object. -/
  | nameOrEnd
  /-- A name. -/
  | name
  /-- The colon after a name. -/
  | colon (name : Option String)
  /-- A comma or the end of the innermost container. -/
  | separator
  /-- Nothing: the value is complete. -/
  | complete (value : Json)

/-- The open containers, the innermost first, and what may come next. -/
structure State where
  frames : List Frame
  mode : Mode

/-- Puts a complete value where it belongs. -/
def deliver (value : Json) : List Frame → Option State
  | [] => some ⟨[], .complete value⟩
  | .items reversed :: outer => some ⟨.items (value :: reversed) :: outer, .separator⟩
  | .member reversed name :: outer =>
    some ⟨.members ((name, value) :: reversed) :: outer, .separator⟩
  | .members _ :: _ => none

/-- An object, of which nothing is legible if one of its names is not. -/
def object (members : List (Option String × Json)) : Json :=
  match members.mapM fun (name, value) => name.map fun name => (name, value) with
  | some members => .obj members
  | none => .illegible

/-- Takes a token where a value may stand. -/
def takeValue (token : Token) (frames : List Frame) : Option State :=
  match token with
  | .openArray => some ⟨.items [] :: frames, .itemOrEnd⟩
  | .openObject => some ⟨.members [] :: frames, .nameOrEnd⟩
  | .null => deliver .null frames
  | .bool b => deliver (.bool b) frames
  | .num n => deliver (n.elim .illegible .num) frames
  | .str s => deliver (s.elim .illegible .str) frames
  | _ => none

/-- Closes the innermost container if the token is its end. -/
def close (token : Token) : List Frame → Option State
  | .items reversed :: outer =>
    match token with
    | .closeArray => deliver (.arr reversed.reverse) outer
    | _ => none
  | .members reversed :: outer =>
    match token with
    | .closeObject => deliver (object reversed.reverse) outer
    | _ => none
  | _ => none

/-- Takes the name of a member. -/
def takeName (token : Token) (frames : List Frame) : Option State :=
  match token with
  | .str s => some ⟨frames, .colon s⟩
  | _ => none

/-- Takes one token. -/
def step (state : State) (token : Token) : Option State :=
  match state.mode with
  | .value => takeValue token state.frames
  | .itemOrEnd => (close token state.frames).or (takeValue token state.frames)
  | .nameOrEnd => (close token state.frames).or (takeName token state.frames)
  | .name => takeName token state.frames
  | .colon name =>
    match token, state.frames with
    | .colon, .members reversed :: outer => some ⟨.member reversed name :: outer, .value⟩
    | _, _ => none
  | .separator =>
    match token, state.frames with
    | .comma, .items _ :: _ => some ⟨state.frames, .value⟩
    | .comma, .members _ :: _ => some ⟨state.frames, .name⟩
    | _, _ => close token state.frames
  | .complete _ => none

end Reading

/-- The value that a row of tokens writes. -/
def ofTokens? (tokens : List Token) : Option Json := do
  let state ← tokens.foldlM Reading.step ⟨[], .value⟩
  match state.mode with
  | .complete value => some value
  | _ => none

/-- Reads a value from characters, of which some may be illegible. -/
def ofRaw? (cs : Text.Raw) : Option Json := do
  ofTokens? (← Token.scan cs)

/-- Reads a text as what `decode` makes of it; what it does not look at only has to be well formed.
-/
def decode? (decode : Json → Option α) (s : String) : Option α :=
  (ofRaw? (s.toList.map some)).bind decode

/-- Reads bytes as what `decode` makes of them; a string that it does not look at may hold bytes
that are no text. -/
def decodeBytes? (decode : Json → Option α) (bytes : ByteArray) : Option α :=
  (ofRaw? (Text.raw bytes)).bind decode

/-- Reads a value from a text of which every part counts. -/
def parse? (s : String) : Option Json :=
  decode? (whole? maxDepth some) s

end NetWorth.Json
