import RespMux.Decimal.Reading
import RespMux.Reply
import RespMux.Text

/-!
# The value inside a reply

A caller says in which `Shape` it wants the value of a reply; there is one function for each
shape, and `Shape.extract` chooses among them. An error reply yields a server error whatever the
shape, a reply of another kind a type mismatch, and a content that cannot be read an invalid
value. An array yields its values only if every item does.
-/

set_option autoImplicit false

namespace RespMux

namespace Reply

/-! ## Failures -/

/-- The reply itself, unless it is an error. -/
def result : Reply → Except Error Reply
  | error t => .error (.server t)
  | r => .ok r

/-- The reply is not of a kind that gives an `expected` value. -/
def mismatch {α : Type} (r : Reply) (expected : String) : Except Error α :=
  .error (.typeMismatch expected r.kind)

/-- The bytes are no number of the kind asked for. -/
def notANumber (bs : Bytes) : Error :=
  .invalidValue ("not a number: " ++ Text.quoted (Utf8.lossy bs))

/-- The bytes as text. -/
def textOf (bs : Bytes) : Except Error String :=
  (Utf8.text? bs).mapError fun f => .invalidValue f.message

/-- The integer that the bytes spell. -/
def integerOf (bs : Bytes) : Except Error Int64 :=
  match Decimal.readSigned? bs with
  | some n => .ok n
  | none => .error (notANumber bs)

/-- The double that the bytes spell. -/
def doubleOf (bs : Bytes) : Except Error Double :=
  match Decimal.readDouble? bs with
  | some x => .ok x
  | none => .error (notANumber bs)

/-! ## Single values -/

/-- An integer, also as text; a timing gives the milliseconds of its round trip. -/
def toInteger : Reply → Except Error Int64
  | error t => .error (.server t)
  | integer n => .ok n
  | status t => integerOf t
  | bulk (some data) => integerOf data
  | timing _ roundTrip => .ok ((Decimal.int64? roundTrip.milliseconds).getD Int64.maxValue)
  | r => r.mismatch "integer"

/-- A truth value: an integer other than zero, the status `OK`; null is false. -/
def toBool : Reply → Except Error Bool
  | error t => .error (.server t)
  | integer n => .ok (n != 0)
  | status t => .ok (t == Literal.bytes .ok)
  | bulk none => .ok false
  | bulk (some data) => (integerOf data).map (· != 0)
  | r => r.mismatch "boolean"

/-- A double, also as text. -/
def toDouble : Reply → Except Error Double
  | error t => .error (.server t)
  | integer n => .ok (Double.ofInt n.toInt)
  | status t => doubleOf t
  | bulk (some data) => doubleOf data
  | r => r.mismatch "double"

/-- A text, or nothing for null. -/
def toText : Reply → Except Error (Option String)
  | error t => .error (.server t)
  | bulk none => .ok none
  | status t => (textOf t).map some
  | bulk (some data) => (textOf data).map some
  | integer n => .ok (some (Decimal.intText n.toInt))
  | r => r.mismatch "string"

/-- A byte string, or nothing for null. -/
def toBytes : Reply → Except Error (Option Bytes)
  | error t => .error (.server t)
  | bulk data => .ok data
  | status t => .ok (some t)
  | r => r.mismatch "bytes"

/-- Any reply that is not an error. -/
def toUnit (r : Reply) : Except Error Unit := r.result.map fun _ => ()

/-! ## Arrays -/

/-- The items of an array. -/
def items : Reply → Except Error (List Reply)
  | error t => .error (.server t)
  | multi rs => .ok rs
  | r => r.mismatch "multi-bulk"

/-- The values of all items, or the failure of the first item that has none. -/
def collect {α : Type} (f : Reply → Except Error α) (rs : List Reply) : Except Error (List α) :=
  rs.mapM f

/-- An array of texts. -/
def toTexts (r : Reply) : Except Error (List (Option String)) := r.items.bind (collect toText)

/-- An array of byte strings. -/
def toBlobs (r : Reply) : Except Error (List (Option Bytes)) := r.items.bind (collect toBytes)

/-- The member of a pair, which must not be null. -/
def toMember (r : Reply) : Except Error Bytes :=
  r.toBytes.bind fun
    | some data => .ok data
    | none => .error (.invalidValue "null member")

/-- Items two by two: a member, then its score. -/
def collectPairs : List Reply → Except Error (List (Bytes × Double))
  | member :: score :: rs =>
      member.toMember.bind fun m =>
        score.toDouble.bind fun x =>
          (collectPairs rs).map ((m, x) :: ·)
  | _ => .ok []

/-- An array of members, each followed by its score. -/
def toPairs (r : Reply) : Except Error (List (Bytes × Double)) :=
  r.items.bind fun rs =>
    if rs.length % 2 = 0 then collectPairs rs
    else .error (.invalidValue
      ("expected an even number of items, got " ++ Decimal.natText rs.length))

end Reply

/-! ## Shapes -/

/-- The form in which a caller wants the value of a reply. -/
inductive Shape where
  | bool | integer | double | text | bytes | texts | blobs | pairs | unit | reply
  deriving DecidableEq, Repr, Inhabited

/-- A value in one of the shapes. -/
inductive Value where
  | bool (b : Bool)
  | integer (n : Int64)
  | double (x : Double)
  | text (s : Option String)
  | bytes (data : Option Bytes)
  | texts (ss : List (Option String))
  | blobs (ds : List (Option Bytes))
  | pairs (ps : List (Bytes × Double))
  | unit
  | reply (r : Reply)
  deriving Inhabited, Repr

/-- The value of a reply in the given shape. -/
def Shape.extract : Shape → Reply → Except Error Value
  | .bool, r => r.toBool.map .bool
  | .integer, r => r.toInteger.map .integer
  | .double, r => r.toDouble.map .double
  | .text, r => r.toText.map .text
  | .bytes, r => r.toBytes.map .bytes
  | .texts, r => r.toTexts.map .texts
  | .blobs, r => r.toBlobs.map .blobs
  | .pairs, r => r.toPairs.map .pairs
  | .unit, r => r.toUnit.map fun _ => .unit
  | .reply, r => r.result.map .reply

end RespMux
