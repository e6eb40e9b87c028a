import Mathlib.Algebra.Order.Ring.Int
import Tinyim.Dbproxy.LastSendRecord

/-! The send loop of the client on one command line. `strtoll` reads the peer from the
front, and the message begins after the last space of the line. -/
namespace Tinyim.CmdClient
open Tinyim.Dbproxy

/-- `isspace` in the "C" locale. -/
def isSpace (c : Char) : Bool := c = ' ' || (9 ≤ c.toNat && c.toNat ≤ 13)

/-- `strtoll(text, nullptr, 10)`: zero without digits, clamped to 64 bits. -/
def strtoll (text : Text) : Int :=
  match scanInt (text.dropWhile isSpace) with
  | some (value, _) => max (-2 ^ 63) (min value (2 ^ 63 - 1))
  | none => 0

/-- `find_last_of` for one character, `none` for `npos`. -/
def findLastOf (c : Char) : Text → Option Nat
  | [] => none
  | d :: rest =>
    match findLastOf c rest with
    | some offset => some (offset + 1)
    | none => if d = c then some 0 else none

/-- The text from `begin() + find_last_of(c) + 1` on; `npos + 1` is zero. -/
def afterLast (c : Char) (text : Text) : Text :=
  match findLastOf c text with
  | some offset => text.drop (offset + 1)
  | none => text

/-- What the loop does with one command. An aborted client has failed
`assert(peer_id != user_id)`. -/
inductive Reaction where
  | ignored
  | help
  | quit
  | aborted
  | sends (newMsg : NewMsg)
  deriving DecidableEq

def sendmsgto : Text := "sendmsgto ".toList

/-- One turn of the loop on the line that `readline` returns, `none` at the end of the
input. The time of the message comes from `assignTime`. -/
def react (userId : Int) (groupIds : List Int) (clientTime : Int) (line : Option Text) :
    Reaction :=
  let command := cStr (line.getD [])
  if command = [] then .ignored
  else if command = "help".toList then .help
  else if command = "quit".toList then .quit
  else if command.head? ≠ some '/' ∧ command.length > sendmsgto.length ∧
      command.take sendmsgto.length = sendmsgto then
    let peerId := strtoll (command.drop sendmsgto.length)
    if peerId = userId then .aborted
    else .sends {
      userId, peerId, clientTime
      msgType := if peerId ∈ groupIds then .GROUP else .PRIVATE
      message := afterLast ' ' command }
  else .ignored

/-- The line that asks for a message to `peerId`. -/
def sendmsgtoLine (peerId : Int) (text : Text) : Text :=
  sendmsgto ++ (decimal peerId ++ ' ' :: text)

theorem findLastOf_eq_none_iff : findLastOf c text = none ↔ c ∉ text := by
  induction text with
  | nil => simp [findLastOf]
  | cons d rest ih =>
      simp only [findLastOf, List.mem_cons, not_or, ← ih]
      cases findLastOf c rest with
      | some offset => simp
      | none => simp [eq_comm]

theorem afterLast_of_not_mem (absent : c ∉ text) : afterLast c text = text := by
  simp only [afterLast, findLastOf_eq_none_iff.mpr absent]

/-- Of two occurrences the first one does not matter. -/
theorem afterLast_cons_of_mem (later : c ∈ rest) :
    afterLast c (d :: rest) = afterLast c rest := by
  cases found : findLastOf c rest with
  | none => exact absurd later (findLastOf_eq_none_iff.mp found)
  | some offset => simp only [afterLast, findLastOf, found, List.drop_succ_cons]

theorem afterLast_cons_self (c : Char) (rest : Text) :
    afterLast c (c :: rest) = afterLast c rest := by
  by_cases later : c ∈ rest
  · exact afterLast_cons_of_mem later
  · rw [afterLast_of_not_mem later]
    simp only [afterLast, findLastOf, findLastOf_eq_none_iff.mpr later, if_true]
    rfl

theorem afterLast_append_cons (c : Char) (front rest : Text) :
    afterLast c (front ++ c :: rest) = afterLast c rest := by
  induction front with
  | nil => exact afterLast_cons_self c rest
  | cons d front ih =>
      rw [List.cons_append, afterLast_cons_of_mem (by simp), ih]

theorem not_mem_afterLast (c : Char) (text : Text) : c ∉ afterLast c text := by
  induction text with
  | nil => exact List.not_mem_nil
  | cons d rest ih =>
      by_cases later : c ∈ rest
      · rwa [afterLast_cons_of_mem later]
      · by_cases same : d = c
        · subst same
          rwa [afterLast_cons_self]
        · have absent : c ∉ d :: rest := by
            rintro (_ | ⟨_, member⟩)
            · exact same rfl
            · exact later member
          rwa [afterLast_of_not_mem absent]

theorem afterLast_eq_self_iff : afterLast c text = text ↔ c ∉ text := by
  constructor
  · intro whole
    rw [← whole]
    exact not_mem_afterLast c text
  · exact afterLast_of_not_mem

theorem isSpace_of_digit (digit : c.isDigit = true) : isSpace c = false := by
  simp only [Char.isDigit, Bool.and_eq_true, decide_eq_true_eq] at digit
  have low : 48 ≤ c.toNat := digit.1
  have visible : c ≠ ' ' := by
    rintro rfl
    exact absurd low (by decide)
  simp only [isSpace, visible, decide_false, Bool.false_or]
  rw [Bool.and_eq_false_iff]
  right
  exact decide_eq_false (by omega)

theorem decimal_start (i : Int) :
    ∃ c rest, decimal i = c :: rest ∧ isSpace c = false := by
  cases i with
  | ofNat n =>
      obtain ⟨c, rest, digits⟩ :=
        List.exists_cons_of_ne_nil (Nat.toDigits_ne_nil (n := n) (b := 10))
      refine ⟨c, rest, digits, isSpace_of_digit ?_⟩
      apply toDigits_digit (n := n)
      rw [digits]
      exact List.mem_cons_self
  | negSucc n => exact ⟨'-', Nat.toDigits 10 (n + 1), rfl, rfl⟩

theorem nul_not_mem_decimal (i : Int) : nul ∉ decimal i := by
  intro member
  cases i with
  | ofNat n => exact absurd (toDigits_digit member) (by decide)
  | negSucc n =>
      obtain sign | member := List.mem_cons.mp member
      · contradiction
      · exact absurd (toDigits_digit member) (by decide)

/-- The front scan stops at the first space after the peer. -/
theorem strtoll_decimal (low : -2 ^ 63 ≤ peerId) (high : peerId < 2 ^ 63) (text : Text) :
    strtoll (decimal peerId ++ ' ' :: text) = peerId := by
  obtain ⟨c, rest, start, visible⟩ := decimal_start peerId
  have kept : (decimal peerId ++ ' ' :: text).dropWhile isSpace =
      decimal peerId ++ ' ' :: text := by
    rw [start, List.cons_append, List.dropWhile_cons_of_neg (by simp [visible])]
  simp only [strtoll, kept, scanInt_decimal peerId (' ' :: text) (by simp)]
  omega

theorem cStr_sendmsgtoLine (peerId : Int) (plain : nul ∉ text) :
    cStr (sendmsgtoLine peerId text) = sendmsgtoLine peerId text := by
  apply cStr_eq_self_iff.mpr
  simp only [sendmsgtoLine, List.mem_append, List.mem_cons, not_or]
  exact ⟨by decide, nul_not_mem_decimal peerId, by decide, plain⟩

/-- The peer is read as it was written; of the text only what follows its last space is
sent. -/
theorem react_sendmsgtoLine (groupIds : List Int) (clientTime : Int)
    (low : -2 ^ 63 ≤ peerId) (high : peerId < 2 ^ 63) (other : peerId ≠ userId)
    (plain : nul ∉ text) :
    react userId groupIds clientTime (some (sendmsgtoLine peerId text)) =
      .sends {
        userId, peerId, clientTime
        msgType := if peerId ∈ groupIds then .GROUP else .PRIVATE
        message := afterLast ' ' text } := by
  have peer : strtoll ((sendmsgtoLine peerId text).drop sendmsgto.length) = peerId := by
    rw [sendmsgtoLine, List.drop_left, strtoll_decimal low high]
  have message : afterLast ' ' (sendmsgtoLine peerId text) = afterLast ' ' text := by
    rw [sendmsgtoLine, ← List.append_assoc, afterLast_append_cons]
  have command : (sendmsgtoLine peerId text).take sendmsgto.length = sendmsgto := by
    rw [sendmsgtoLine, List.take_left]
  have long : (sendmsgtoLine peerId text).length > sendmsgto.length := by
    simp only [sendmsgtoLine, List.length_append, List.length_cons]
    omega
  have first : (sendmsgtoLine peerId text).head? = some 's' := rfl
  have different (word : Text) (begins : word.head? ≠ some 's') :
      sendmsgtoLine peerId text ≠ word := by
    rintro rfl
    exact begins first
  have request : (sendmsgtoLine peerId text).head? ≠ some '/' ∧
      (sendmsgtoLine peerId text).length > sendmsgto.length ∧
      (sendmsgtoLine peerId text).take sendmsgto.length = sendmsgto :=
    ⟨by rw [first]; decide, long, command⟩
  simp only [react, Option.getD_some, cStr_sendmsgtoLine peerId plain, peer, message]
  rw [if_neg (different _ (by decide)), if_neg (different _ (by decide)),
    if_neg (different _ (by decide)), if_pos request, if_neg other]

/-- The loop sends the message that the line asks for. -/
def RoundTrip (userId : Int) (groupIds : List Int) (clientTime peerId : Int) (text : Text) :
    Prop :=
  ∃ newMsg, react userId groupIds clientTime (some (sendmsgtoLine peerId text)) = .sends newMsg ∧
    newMsg.peerId = peerId ∧ newMsg.message = text

theorem command_round_trip_iff (groupIds : List Int) (clientTime : Int)
    (low : -2 ^ 63 ≤ peerId) (high : peerId < 2 ^ 63) (other : peerId ≠ userId)
    (plain : nul ∉ text) :
    RoundTrip userId groupIds clientTime peerId text ↔ ' ' ∉ text := by
  rw [RoundTrip, react_sendmsgtoLine groupIds clientTime low high other plain,
    ← afterLast_eq_self_iff]
  constructor
  · rintro ⟨newMsg, sent, -, message⟩
    cases sent
    exact message
  · intro whole
    exact ⟨_, rfl, rfl, whole⟩

theorem command_round_trip_iff_one_word :
    RoundTrip 1 [9] 100 (-2) "hi2all".toList ↔ ' ' ∉ "hi2all".toList :=
  command_round_trip_iff [9] 100 (by decide) (by decide) (by decide) (by decide)

/-- Of two words the first one is lost. -/
theorem first_word_is_not_sent :
    react 1 [9] 100 (some "sendmsgto 2 hi all".toList) =
        .sends ⟨1, 2, .PRIVATE, "all".toList, 100, 0⟩ ∧
      ¬ RoundTrip 1 [9] 100 2 "hi all".toList := by
  refine ⟨by decide, ?_⟩
  rintro ⟨newMsg, sent, -, message⟩
  have sends : react 1 [9] 100 (some (sendmsgtoLine 2 "hi all".toList)) =
      .sends ⟨1, 2, .PRIVATE, "all".toList, 100, 0⟩ := by decide
  rw [sends] at sent
  cases sent
  exact absurd message (by decide)

end Tinyim.CmdClient
