import RespMux.Bytes

/-!
# The words of the protocol

The command names, and the fixed words that replies and arguments are compared with or made of.
Each has a name, and on the wire it is that name in capitals.
-/

set_option autoImplicit false

namespace RespMux

/-- A word of the protocol. -/
inductive Literal where
  | ok | queued | pong | auth | ping | quit | select | info | echo | debug | dbSize | flushDb
  | flushAll | multi | exec | discard | watch | unwatch | del | exists | expire | persist | ttl
  | type | keys | rename | get | set | setEx | setNx | getSet | append | strLen | incr | incrBy
  | decr | decrBy | mGet | mSet | lPush | rPush | lPop | rPop | lLen | lRange | hGet | hSet
  | hDel | hGetAll | hIncrBy | sAdd | sRem | sMembers | sIsMember | zAdd | zIncrBy | zScore
  | zRange | zRevRange | zRangeByScore | zCard | publish | withScores | sleep
  deriving DecidableEq, Repr, Inhabited

namespace Literal

/-- The name of a word. -/
def name : Literal → String
  | .ok => "Ok"
  | .queued => "Queued"
  | .pong => "Pong"
  | .auth => "Auth"
  | .ping => "Ping"
  | .quit => "Quit"
  | .select => "Select"
  | .info => "Info"
  | .echo => "Echo"
  | .debug => "Debug"
  | .dbSize => "DbSize"
  | .flushDb => "FlushDb"
  | .flushAll => "FlushAll"
  | .multi => "Multi"
  | .exec => "Exec"
  | .discard => "Discard"
  | .watch => "Watch"
  | .unwatch => "Unwatch"
  | .del => "Del"
  | .exists => "Exists"
  | .expire => "Expire"
  | .persist => "Persist"
  | .ttl => "Ttl"
  | .type => "Type"
  | .keys => "Keys"
  | .rename => "Rename"
  | .get => "Get"
  | .set => "Set"
  | .setEx => "SetEx"
  | .setNx => "SetNx"
  | .getSet => "GetSet"
  | .append => "Append"
  | .strLen => "StrLen"
  | .incr => "Incr"
  | .incrBy => "IncrBy"
  | .decr => "Decr"
  | .decrBy => "DecrBy"
  | .mGet => "MGet"
  | .mSet => "MSet"
  | .lPush => "LPush"
  | .rPush => "RPush"
  | .lPop => "LPop"
  | .rPop => "RPop"
  | .lLen => "LLen"
  | .lRange => "LRange"
  | .hGet => "HGet"
  | .hSet => "HSet"
  | .hDel => "HDel"
  | .hGetAll => "HGetAll"
  | .hIncrBy => "HIncrBy"
  | .sAdd => "SAdd"
  | .sRem => "SRem"
  | .sMembers => "SMembers"
  | .sIsMember => "SIsMember"
  | .zAdd => "ZAdd"
  | .zIncrBy => "ZIncrBy"
  | .zScore => "ZScore"
  | .zRange => "ZRange"
  | .zRevRange => "ZRevRange"
  | .zRangeByScore => "ZRangeByScore"
  | .zCard => "ZCard"
  | .publish => "Publish"
  | .withScores => "WithScores"
  | .sleep => "Sleep"

/-- The text of a word: its name in capitals. -/
def text (l : Literal) : String := String.ofList (l.name.toList.map Char.toUpper)

/-- The bytes of a word on the wire. -/
def bytes (l : Literal) : Bytes := Bytes.ofText l.text

/-- All words, in the order of their declaration. -/
def all : List Literal := [
  .ok, .queued, .pong, .auth, .ping, .quit, .select, .info, .echo, .debug, .dbSize, .flushDb,
  .flushAll, .multi, .exec, .discard, .watch, .unwatch, .del, .exists, .expire, .persist, .ttl,
  .type, .keys, .rename, .get, .set, .setEx, .setNx, .getSet, .append, .strLen, .incr, .incrBy,
  .decr, .decrBy, .mGet, .mSet, .lPush, .rPush, .lPop, .rPop, .lLen, .lRange, .hGet, .hSet,
  .hDel, .hGetAll, .hIncrBy, .sAdd, .sRem, .sMembers, .sIsMember, .zAdd, .zIncrBy, .zScore,
  .zRange, .zRevRange, .zRangeByScore, .zCard, .publish, .withScores, .sleep]

/-- The word with this text. -/
def ofText? (s : String) : Option Literal := all.find? fun l => l.text == s

theorem mem_all (l : Literal) : l ∈ all := by cases l <;> decide

end Literal

end RespMux
