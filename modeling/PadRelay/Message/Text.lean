import PadRelay.Message.Fields
import PadRelay.Text.Quoted

/-!
This module contains the text of messages in diagnostics: the label of the message type and all of
its fields in the order of the schema, whether they are set or not.
-/

namespace PadRelay

/--
A number that should be a member of `e`: the label of the member or, if there is none, the number.
-/
def EnumType.textOf (e : EnumType) (n : Int32) : String :=
  match e.ofNumber? n with
  | some m => m.label
  | none => toString n.toInt

def bracketed (elements : List String) : String :=
  "[" ++ ", ".intercalate elements ++ "]"

/--
The text of one field, where `sub` gives the texts of the messages that the field may hold.
-/
def FieldKind.textOf (sub : (t : MessageType) → t.Carrier → String) :
    (kind : FieldKind) → kind.Carrier → String
  | .flag, v => if v = true then "true" else "false"
  | .int32, v => toString (Int32.toInt v)
  | .int64, v => toString (Int64.toInt v)
  | .text, v => Text.quote v
  | .enumeration e, v => e.textOf v
  | .enumerations e, vs => bracketed (List.map e.textOf vs)
  | .message t, v =>
    match v with
    | none => "None"
    | some m => "Some(" ++ sub t m ++ ")"
  | .messages t, ms => bracketed (List.map (sub t) ms)

namespace MessageType

/--
The text of a message in which messages are nested less than `depth` deep.
-/
def textWithin : (depth : Nat) → (t : MessageType) → t.Carrier → String
  | 0, t, _ => t.label
  | depth + 1, t, m =>
    match t.fields with
    | [] => t.label
    | fields =>
      let body := fields.map fun f => f.name ++ ": " ++ f.kind.textOf (textWithin depth) (f.get m)
      t.label ++ " \x7b " ++ ", ".intercalate body ++ " \x7d"

/--
The text of a message. No message type nests others more than twice.
-/
def textOf (t : MessageType) (m : t.Carrier) : String :=
  textWithin 3 t m

end MessageType
end PadRelay
