import HealthRelay.CommandLine
import HealthRelay.Journal
import HealthRelay.Json.Writer

/-!
# Journal lines

How an entry is written: as words with its fields behind the message, or as one JSON object whose
counts are numbers.
-/

namespace HealthRelay

namespace FieldValue

def jsonChars : FieldValue → List Char
  | .text s => Json.writeQuoted s.toList
  | .count n => Text.decimal n

end FieldValue

namespace Record

def fieldsText (r : Record) : String :=
  String.join (r.fields.map fun (key, value) => " " ++ key ++ "=" ++ value.shown)

def text (r : Record) : String :=
  r.level.word ++ " " ++ r.target ++ ": " ++ r.message ++ r.fieldsText

def jsonChars (r : Record) (stamp : String) : List Char :=
  let fields : List Json.Member :=
    ⟨"message", Json.writeQuoted r.message.toList⟩ ::
      r.fields.map fun (key, value) => ⟨key, value.jsonChars⟩
  Json.writeObject
    [⟨"timestamp", Json.writeQuoted stamp.toList⟩,
      ⟨"level", Json.writeQuoted r.level.word.toList⟩,
      ⟨"fields", Json.writeObject fields⟩,
      ⟨"target", Json.writeQuoted r.target.toList⟩]

/-- The line of an entry, stamped with a time. -/
def line (r : Record) (format : LogFormat) (stamp : String) : String :=
  match format with
  | .text => stamp ++ " " ++ r.text
  | .json => String.ofList (r.jsonChars stamp)

end Record

end HealthRelay
