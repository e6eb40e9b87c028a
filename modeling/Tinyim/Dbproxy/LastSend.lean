import Tinyim.Common.Messages

/-! The Redis record of a sender's last message: the text that the Lua script of
`SetUserLastSendData_` stores and the pattern that `GetUserLastSendData` scans. -/
namespace Tinyim.Dbproxy

/-- The text that `operator<<` writes for an integer. -/
def decimal : Int → Text
  | .ofNat n => Nat.toDigits 10 n
  | .negSucc n => '-' :: Nat.toDigits 10 (n + 1)

/-- `cjson.encode` of an array of strings without characters to escape. -/
def cjsonEncode (items : List Text) : Text :=
  '[' :: (List.intercalate [','] (items.map fun item => '"' :: item ++ ['"']) ++ [']'])

inductive Decoding where
  | opening
  | inside (item : Text)
  | closed

def cjsonItems : Decoding → Text → Option (List Text)
  | .opening, '"' :: rest => cjsonItems (.inside []) rest
  | .inside item, '"' :: rest => (cjsonItems .closed rest).map (item.reverse :: ·)
  | .inside item, c :: rest => cjsonItems (.inside (c :: item)) rest
  | .closed, ',' :: rest => cjsonItems .opening rest
  | .closed, [']'] => some []
  | _, _ => none

/-- `cjson.decode` of an array of strings; other texts raise an error. -/
def cjsonDecode : Text → Option (List Text)
  | '[' :: rest => cjsonItems .opening rest
  | _ => none

def digitsValue (digits : Text) : Int :=
  digits.foldl (fun value c => value * 10 + (c.toNat - '0'.toNat)) 0

/-- `%ld` and `%d`: blanks, an optional sign, at least one digit. -/
def scanInt (text : Text) : Option (Int × Text) :=
  let (negative, unsigned) := match text.dropWhile Char.isWhitespace with
    | '-' :: rest => (true, rest)
    | '+' :: rest => (false, rest)
    | rest => (false, rest)
  let digits := unsigned.takeWhile Char.isDigit
  if digits = [] then none
  else some (if negative then -digitsValue digits else digitsValue digits,
    unsigned.dropWhile Char.isDigit)

/-- `tonumber` on a decimal integer text. -/
def tonumber (text : Text) : Option Int :=
  match scanInt text with
  | some (value, []) => some value
  | _ => none

/-- `sscanf(text, "[%ld,%d,%d]", &msg_id, &client_time, &msg_time)` on targets that
start at zero: the scan stops at the first mismatch and leaves the rest as they are. -/
def scanLastSend (text : Text) : UserLastSendData :=
  match text with
  | '[' :: afterBracket =>
    match scanInt afterBracket with
    | none => {}
    | some (msgId, ',' :: afterMsgId) =>
      match scanInt afterMsgId with
      | none => { msgId }
      | some (clientTime, ',' :: afterClientTime) =>
        match scanInt afterClientTime with
        | none => { msgId, clientTime }
        | some (msgTime, _) => { msgId, clientTime, msgTime }
      | some (clientTime, _) => { msgId, clientTime }
    | some (msgId, _) => { msgId }
  | _ => {}

/-- The value the script stores: ARGV holds Lua strings, so each element is quoted. -/
def recordText (data : UserLastSendData) : Text :=
  cjsonEncode [decimal data.msgId, decimal data.clientTime, decimal data.msgTime]

/-- `tonumber(cjson.decode(a)[2]) < tonumber(ARGV[2])`, `none` when it raises an error. -/
def recordOlder (record : Text) (data : UserLastSendData) : Option Bool := do
  let clientTime ← tonumber (← (← cjsonDecode record)[1]?)
  return decide (clientTime < (← tonumber (decimal data.clientTime)))

/-- The Lua script of `SetUserLastSendData_` on the value of its key. -/
def setUserLastSendData (old : Option Text) (data : UserLastSendData) : Option Text :=
  match old with
  | none => some (recordText data)
  | some record => if recordOlder record data = some true then some (recordText data) else old

def redisGetFailed : RpcError := ⟨EINVAL, "Fail to get data from redis.".toList⟩

def redisSetFailed : RpcError := ⟨EINVAL, "Fail to set user last send data.".toList⟩

theorem setUserLastSendData_cases (stored : setUserLastSendData old data = some record) :
    record = recordText data ∨ old = some record := by
  cases old with
  | none => exact .inl (Option.some.inj stored).symm
  | some previous =>
      simp only [setUserLastSendData] at stored
      split at stored
      · exact .inl (Option.some.inj stored).symm
      · exact .inr stored

/-- The scan expects a digit where the script has written a quotation mark, so no
target of the `sscanf` is assigned. -/
theorem scanLastSend_recordText (data : UserLastSendData) :
    scanLastSend (recordText data) = {} := by
  rfl

end Tinyim.Dbproxy
