import WordMachine.Log.Record

/-!
# Records as JSON

A record as one JSON object, with its level, its fields and its spans as members. The time of a
record and the place it comes from, which such objects may have as well, are left out, and all
values of fields are strings, also those that are numbers.
-/

namespace WordMachine

namespace Json

/-- One character of a JSON text. -/
def escape (c : Char) : String :=
  if c = '"' then "\\\""
  else if c = '\\' then "\\\\"
  else if c = '\n' then "\\n"
  else if c.toNat < 32 then
    "\\u00" ++ String.ofList [Nat.digitChar (c.toNat / 16), Nat.digitChar (c.toNat % 16)]
  else String.singleton c

def text (s : String) : String := "\"" ++ String.join (s.toList.map escape) ++ "\""

/-- A JSON object with the given members, whose values are JSON already. -/
def object (members : List (String × String)) : String :=
  "\x7b" ++ ",".intercalate (members.map fun (key, value) => text key ++ ":" ++ value) ++ "\x7d"

/-- Fields as members. -/
def members (fs : List (String × FieldValue)) : List (String × String) :=
  fs.map fun (name, value) => (name, text value.text)

end Json

/-- A record as a JSON object, without its time and the place it comes from, and with numbers as
strings. -/
def Record.object (r : Record) : String :=
  let message := if r.message.isEmpty then [] else [("message", Json.text r.message)]
  let spans := r.spans.map fun s => Json.object (("name", Json.text s.name) :: Json.members s.fields)
  Json.object [("level", Json.text r.level.name),
    ("fields", Json.object (message ++ Json.members r.fields)),
    ("spans", "[" ++ ",".intercalate spans ++ "]")]

end WordMachine
