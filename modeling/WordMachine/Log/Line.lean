import WordMachine.Log.Object
import WordMachine.Text.Inert

/-!
# Log lines

A record in one line: the level, right-aligned; the spans, each followed by a colon; the message;
the fields. In color, each level has a color of its own, span names are bold, field names are
italic and the signs between them are dim. A message is written as inert text, so that no color
comes from it. Instead, the line can be a JSON object.
-/

namespace WordMachine

/-- How the lines of a log are written. -/
inductive LineStyle
  | plain
  | colored
  | json
deriving DecidableEq, Repr

/-- Columns that a level takes. -/
def Level.columns : Nat := 5

/-- A level filled up with blanks on its left. -/
def Level.label (l : Level) : String :=
  "".pushn ' ' (Level.columns - l.name.length) ++ l.name

theorem Level.label_error : Level.error.label = "ERROR" := rfl

/-- The number of the color of a level. -/
def Level.color : Level → Nat
  | error => 31
  | warn  => 33
  | info  => 32
  | debug => 34
  | trace => 35

/-- The value of a field in a line. -/
def FieldValue.lineText : FieldValue → String
  | .str s   => Text.quoted s
  | .shown s => s

/-! ### Painting -/

/-- Text switched to a rendition with a given number, and back. -/
def painted (rendition : Nat) (s : String) : String :=
  "\x1b[" ++ toString rendition ++ "m" ++ s ++ "\x1b[0m"

/-- How a text can stand out, color apart. -/
inductive Rendition
  | bold
  | dim
  | italic
deriving DecidableEq, Repr

def Rendition.number : Rendition → Nat
  | bold   => 1
  | dim    => 2
  | italic => 3

namespace LineStyle

/-- Text in a rendition, where the style knows renditions. -/
def paint (style : LineStyle) (r : Rendition) (s : String) : String :=
  match style with
  | colored => painted r.number s
  | _        => s

def level (style : LineStyle) (l : Level) : String :=
  match style with
  | colored => painted l.color l.label
  | _        => l.label

def field (style : LineStyle) (name : String) (value : FieldValue) : String :=
  style.paint .italic name ++ style.paint .dim "=" ++ value.lineText

def fields (style : LineStyle) (fs : List (String × FieldValue)) : String :=
  " ".intercalate (fs.map fun (name, value) => style.field name value)

def span (style : LineStyle) (s : Span) : String :=
  let fields :=
    if s.fields.isEmpty then ""
    else style.paint .bold "\x7b" ++ style.fields s.fields ++ style.paint .bold "\x7d"
  style.paint .bold s.name ++ fields ++ style.paint .dim ":"

end LineStyle

/-! ### Lines -/

namespace Record

/-- A record in one line. -/
def line (style : LineStyle) (r : Record) : String :=
  match style with
  | .json => r.object
  | _     =>
    let spans :=
      if r.spans.isEmpty then [] else [String.join (r.spans.map style.span)]
    let message := if r.message.isEmpty then [] else [Text.inert r.message]
    let fields := if r.fields.isEmpty then [] else [style.fields r.fields]
    " ".intercalate (style.level r.level :: (spans ++ message ++ fields))

/-- Without colors, a record that is only a message is shown as its level, a blank, and the message
as inert text. -/
theorem line_message (l : Level) {message : String} (h : message ≠ "") :
    line .plain { level := l, message := message } = l.label ++ " " ++ Text.inert message := by
  have hmessage : message.isEmpty = false := by
    rw [← Bool.not_eq_true, String.isEmpty_iff]
    exact h
  simp only [line, hmessage]
  rfl

def lines (style : LineStyle) (rs : List Record) : String :=
  String.join (rs.map fun r => r.line style ++ "\n")

end Record

end WordMachine
