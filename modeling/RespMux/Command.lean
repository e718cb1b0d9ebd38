import RespMux.Request
import RespMux.Reply.Extract

/-!
# Commands

The common commands, each with its request and the shape of its result.
-/

set_option autoImplicit false

namespace RespMux

/-- A common command. -/
inductive Command where
  /-- the round trip in milliseconds -/
  | ping
  | info
  | get (db : Database) (key : Argument)
  | getText (db : Database) (key : Argument)
  | set (db : Database) (key value : Argument)
  | setWithExpiry (db : Database) (key : Argument) (seconds : Int64) (value : Argument)
  | remove (db : Database) (key : Argument)
  | exists (db : Database) (key : Argument)
  | increment (db : Database) (key : Argument)
  | incrementBy (db : Database) (key : Argument) (by_ : Int64)
  | append (db : Database) (key value : Argument)
  | listPush (db : Database) (key value : Argument)
  | listRange (db : Database) (key : Argument) (start stop : Int64)
  | hashGet (db : Database) (key field : Argument)
  | hashSet (db : Database) (key field value : Argument)
  | sortedSetAdd (db : Database) (key member : Argument) (score : Double)
  | sortedSetRange (db : Database) (key min max : Argument)
  deriving DecidableEq, Repr, Inhabited

namespace Command

/-- A request for a database. -/
def on (command : Literal) (db : Database) (args : List Argument) : Request :=
  { command := command, db := some db, args := args }

/-- The request of a command. -/
def request : Command → Request
  | ping => { Request.ping with expected := some .pong }
  | info => { command := .info }
  | get db key => on .get db [key]
  | getText db key => on .get db [key]
  | set db key value => { on .set db [key, value] with expected := some .ok }
  | setWithExpiry db key seconds value =>
      { on .setEx db [key, .integer seconds, value] with expected := some .ok }
  | remove db key => on .del db [key]
  | «exists» db key => on .exists db [key]
  | increment db key => on .incr db [key]
  | incrementBy db key n => on .incrBy db [key, .integer n]
  | append db key value => on .append db [key, value]
  | listPush db key value => on .rPush db [key, value]
  | listRange db key start stop => on .lRange db [key, .integer start, .integer stop]
  | hashGet db key field => on .hGet db [key, field]
  | hashSet db key field value => on .hSet db [key, field, value]
  | sortedSetAdd db key member score => on .zAdd db [key, .double score, member]
  | sortedSetRange db key min max =>
      on .zRangeByScore db [key, min, max, .literal .withScores]

/-- The shape of the result of a command. -/
def shape : Command → Shape
  | ping => .integer
  | info => .text
  | get _ _ => .bytes
  | getText _ _ => .text
  | set _ _ _ => .unit
  | setWithExpiry _ _ _ _ => .unit
  | remove _ _ => .bool
  | «exists» _ _ => .bool
  | increment _ _ => .integer
  | incrementBy _ _ _ => .integer
  | append _ _ _ => .integer
  | listPush _ _ _ => .integer
  | listRange _ _ _ _ => .texts
  | hashGet _ _ _ => .bytes
  | hashSet _ _ _ _ => .bool
  | sortedSetAdd _ _ _ _ => .bool
  | sortedSetRange _ _ _ _ => .pairs

end Command

end RespMux
