import LocaleCatalog.Json.Number
import LocaleCatalog.Json.Text

/-!
# Texts, lists and objects of a wanted kind

A reader of this module wants one kind of value and reports any other (`wrongType`). Objects and
lists are read member by member: what stands between two members is decided by one reader for each
place (`behindBrace`, `behindMember`, `behindItem`), which says whether another member follows, or
names what is wrong there.
-/

namespace LocaleCatalog.Json

/-! ## 1. Values of another kind -/

/-- Reads the letters of a word behind what was read already. -/
def word {α : Type} {input : List Char} :
    List Char → Parsed α input → Except Fault (Parsed α input)
  | [], p => .ok p
  | _ :: _, ⟨_, [], _⟩ => .error (.before [] .endInValue)
  | w :: ws, ⟨a, c :: rest, shorter⟩ =>
    if c = w then word ws (Parsed.followedBy ⟨a, c :: rest, shorter⟩ (.one a c rest))
    else .error (.within (c :: rest) .expectedWord)

/-- Reads a scalar, from its first character on. `none` if that starts no scalar. -/
def scalar? {input : List Char} (token : Parsed Char input) :
    Option (Except Fault (Unexpected × List Char)) :=
  let found {α : Type} {input : List Char} (name : α → Unexpected)
      (read : Except Fault (Parsed α input)) : Except Fault (Unexpected × List Char) :=
    read.map fun p => (name p.value, p.rest)
  let c := token.value
  if c = 'n' then some (found (fun _ => .null) (word "ull".toList token))
  else if c = 't' then some (found (fun _ => .boolean true) (word "rue".toList token))
  else if c = 'f' then some (found (fun _ => .boolean false) (word "alse".toList token))
  else if c = '"' then some (found (.text ∘ String.ofList) (quotedChars token.rest))
  else if c = '-' ∨ c.isDigit then some (found .number (number token.chars))
  else none

/-- Reports a value of another kind than the wanted one. A scalar is read to its end first, and a
    fault in it is the one reported; a list or an object is left unread. -/
def wrongType (wanted : Shape) {input : List Char} (token : Parsed Char input) : Fault :=
  match scalar? token with
  | some (.ok (found, rest)) => .before rest (.wrongType found wanted)
  | some (.error fault) => fault
  | none =>
    if token.value = '[' then .before token.chars (.wrongType .list wanted)
    else if token.value = '{' then .before token.chars (.wrongType .object wanted)
    else .within token.chars .expectedValue

/-- A value behind its blanks, told apart by its first character. -/
def startingWith {α : Type} (opening : Char) (wanted : Shape) (body : Reader α) : Reader α :=
  fun input =>
    match token? input with
    | none => .error (.within [] .endInValue)
    | some token =>
      if token.value = opening then (body token.rest).map token.followedBy
      else .error (wrongType wanted token)

/-- A text. -/
def text : Reader String :=
  startingWith '"' .text fun input => (quotedChars input).map (·.map String.ofList)

/-! ## 2. Objects -/

/-- The colon between a key and its value. -/
def colon : Reader Unit := fun input =>
  match token? input with
  | none => .error (.within [] .endInObject)
  | some token =>
    if token.value = ':' then .ok (token.map fun _ => ())
    else .error (.within token.chars .expectedColon)

/-- What stands behind an opening brace: the quote of the first key (`true`), or the end. -/
def behindBrace : Reader Bool := fun input =>
  match token? input with
  | none => .error (.within [] .endInObject)
  | some token =>
    if token.value = '}' then .ok (token.map fun _ => false)
    else if token.value = '"' then .ok (token.map fun _ => true)
    else .error (.within token.chars .keyNotText)

/-- What stands behind a comma in an object: the quote of the next key. -/
def behindComma : Reader Bool := fun input =>
  match token? input with
  | none => .error (.within [] .endInValue)
  | some token =>
    if token.value = '"' then .ok (token.map fun _ => true)
    else if token.value = '}' then .error (.within token.chars .trailingComma)
    else .error (.within token.chars .keyNotText)

/-- What stands behind a value in an object: a comma and the quote of the next key (`true`), or the
    end. -/
def behindMember : Reader Bool := fun input =>
  match token? input with
  | none => .error (.within [] .endInObject)
  | some token =>
    if token.value = '}' then .ok (token.map fun _ => false)
    else if token.value = ',' then (behindComma token.rest).map token.followedBy
    else .error (.within token.chars .expectedCommaOrBrace)

/-- A key and its value, from behind the opening quote of the key on. -/
def member {α : Type} (value : Reader α) : Reader (String × α) := fun input => do
  let key ← quotedChars input
  let mark ← colon key.rest
  let found ← value mark.rest
  return key.followedBy (mark.followedBy (found.map (String.ofList key.value, ·)))

/-- The members of an object from behind the opening quote of a key on. -/
def members {α : Type} (value : Reader α) : Reader (List (String × α)) := fun input => do
  let first ← member value input
  let next ← behindMember first.rest
  if next.value then
    let more ← members value next.rest
    return first.followedBy (next.followedBy (more.map (first.value :: ·)))
  else return first.followedBy (next.map fun _ => [first.value])
termination_by input => input.length
decreasing_by exact Nat.lt_trans next.shorter first.shorter

/-- The members of an object behind its opening brace, in the order of the text. -/
def objectBody {α : Type} (value : Reader α) : Reader (List (String × α)) := fun input => do
  let start ← behindBrace input
  if start.value then return start.followedBy (← members value start.rest)
  else return start.map fun _ => []

/-- An object with values of one kind; its members in the order of the text. -/
def object {α : Type} (value : Reader α) : Reader (List (String × α)) :=
  startingWith '{' .object (objectBody value)

/-! ## 3. Lists -/

/-- The end of a list that holds nothing, if it stands here. -/
def emptyEnd? (input : List Char) : Except Fault (Option (Parsed Unit input)) :=
  match token? input with
  | none => .error (.within [] .endInList)
  | some token => .ok (if token.value = ']' then some (token.map fun _ => ()) else none)

/-- What stands behind an item of a list: a comma with another item behind it (`true`), or the
    end. -/
def behindItem : Reader Bool := fun input =>
  match token? input with
  | none => .error (.within [] .endInList)
  | some token =>
    if token.value = ']' then .ok (token.map fun _ => false)
    else if token.value = ',' then
      match token? token.rest with
      | none => .error (.within [] .endInValue)
      | some next =>
        if next.value = ']' then .error (.within next.chars .trailingComma)
        else .ok (token.map fun _ => true)
    else .error (.within token.chars .expectedCommaOrBracket)

/-- The items of a list from the first one on. -/
def items {α : Type} (value : Reader α) : Reader (List α) := fun input => do
  let first ← value input
  let next ← behindItem first.rest
  if next.value then
    let more ← items value next.rest
    return first.followedBy (next.followedBy (more.map (first.value :: ·)))
  else return first.followedBy (next.map fun _ => [first.value])
termination_by input => input.length
decreasing_by exact Nat.lt_trans next.shorter first.shorter

/-- A list with items of one kind. -/
def list {α : Type} (value : Reader α) : Reader (List α) :=
  startingWith '[' .list fun input => do
    match ← emptyEnd? input with
    | some close => return close.map fun _ => []
    | none => items value input

end LocaleCatalog.Json
