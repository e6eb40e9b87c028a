import Tinyim.Dbproxy.LastSend
import Tinyim.Dbproxy.MessagesTable

/-! What the record of `SetUserLastSendData_` keeps and what is read back from it. The
script decodes its own text; the pattern of `GetUserLastSendData` does not. -/
namespace Tinyim.Dbproxy

theorem toDigits_digit {n : Nat} (member : c ∈ Nat.toDigits 10 n) : c.isDigit = true :=
  Nat.isDigit_of_mem_toDigits (by decide) (by decide) member

theorem digit_ne {c d : Char} (digit : c.isDigit = true) (other : d.isDigit = false) : c ≠ d := by
  rintro rfl
  rw [digit] at other
  contradiction

theorem digit_not_blank {c : Char} (digit : c.isDigit = true) : c.isWhitespace = false := by
  cases blank : c.isWhitespace with
  | false => rfl
  | true =>
      simp only [Char.isWhitespace, Bool.or_eq_true, decide_eq_true_eq] at blank
      rcases blank with ((rfl | rfl) | rfl) | rfl <;> contradiction

theorem digitsValue_eq (digits : Text) (all : ∀ c ∈ digits, c.isDigit = true) :
    digitsValue digits = Nat.ofDigitChars 10 digits 0 := by
  have step : ∀ (value : Nat), digits.foldl
      (fun value c => value * 10 + ((c.toNat : Int) - '0'.toNat)) (value : Int) =
        Nat.ofDigitChars 10 digits value := by
    induction digits with
    | nil => intro value; simp
    | cons c rest ih =>
        intro value
        have digit := all c List.mem_cons_self
        have bound : '0'.toNat ≤ c.toNat := by
          simp only [Char.isDigit, Bool.and_eq_true, decide_eq_true_eq] at digit
          exact digit.1
        rw [List.foldl_cons, Nat.ofDigitChars_cons,
          ← ih (fun d member => all d (List.mem_cons_of_mem _ member))]
        congr 1
        omega
  exact step 0

theorem takeWhile_toDigits (n : Nat) (stop : ∀ c ∈ rest.head?, c.isDigit = false) :
    (Nat.toDigits 10 n ++ rest).takeWhile Char.isDigit = Nat.toDigits 10 n ∧
      (Nat.toDigits 10 n ++ rest).dropWhile Char.isDigit = rest := by
  have all : ∀ c ∈ Nat.toDigits 10 n, c.isDigit = true := fun _ => toDigits_digit
  rw [List.takeWhile_append_of_pos all, List.dropWhile_append_of_pos all]
  cases rest with
  | nil => exact ⟨List.append_nil _, rfl⟩
  | cons c rest =>
      have ended := stop c rfl
      simp [ended]

theorem scanInt_decimal (i : Int) (rest : Text)
    (stop : ∀ c ∈ rest.head?, c.isDigit = false) :
    scanInt (decimal i ++ rest) = some (i, rest) := by
  cases i with
  | ofNat n =>
      obtain ⟨taken, dropped⟩ := takeWhile_toDigits n stop
      have value := digitsValue_eq _ fun _ => toDigits_digit (n := n)
      obtain ⟨c, more, digits⟩ :=
        List.exists_cons_of_ne_nil (Nat.toDigits_ne_nil (n := n) (b := 10))
      have digit : c.isDigit = true :=
        toDigits_digit (n := n) (by rw [digits]; exact List.mem_cons_self)
      have visible := digit_not_blank digit
      have unsigned : c ≠ '-' ∧ c ≠ '+' := ⟨digit_ne digit rfl, digit_ne digit rfl⟩
      have start : (decimal (.ofNat n) ++ rest).dropWhile Char.isWhitespace =
          c :: (more ++ rest) := by
        simp [decimal, digits, visible]
      rw [digits, List.cons_append] at taken dropped
      -- Neither sign matches the first digit.
      simp only [scanInt, start]
      simp [unsigned.1, unsigned.2, taken, dropped, ← digits, value]
  | negSucc n =>
      obtain ⟨taken, dropped⟩ := takeWhile_toDigits (n + 1) stop
      have value := digitsValue_eq _ fun _ => toDigits_digit (n := n + 1)
      have start : (decimal (.negSucc n) ++ rest).dropWhile Char.isWhitespace =
          '-' :: (Nat.toDigits 10 (n + 1) ++ rest) := rfl
      simp only [scanInt, start, taken, dropped, Nat.toDigits_ne_nil, if_false, if_true, value,
        Nat.ofDigitChars_ten_toDigits]
      rfl

theorem tonumber_decimal (i : Int) : tonumber (decimal i) = some i := by
  have scanned := scanInt_decimal i [] (by simp)
  rw [List.append_nil] at scanned
  simp only [tonumber, scanned]

theorem decimal_injective (same : decimal i = decimal j) : i = j := by
  have read := tonumber_decimal i
  rw [same, tonumber_decimal] at read
  exact (Option.some.inj read).symm

theorem quote_not_mem_decimal (i : Int) : '"' ∉ decimal i := by
  intro member
  cases i with
  | ofNat n => exact absurd (toDigits_digit member) (by decide)
  | negSucc n =>
      obtain sign | member := List.mem_cons.mp member
      · contradiction
      · exact absurd (toDigits_digit member) (by decide)

theorem cjsonItems_inside (item rest : Text) (plain : '"' ∉ item) (read : Text) :
    cjsonItems (.inside read) (item ++ '"' :: rest) =
      (cjsonItems .closed rest).map ((read.reverse ++ item) :: ·) := by
  induction item generalizing read with
  | nil => simp [cjsonItems]
  | cons c item ih =>
      obtain ⟨other, plain⟩ := not_or.mp (mt List.mem_cons.mpr plain)
      rw [List.cons_append, cjsonItems.eq_3 _ _ _ (Ne.symm other), ih plain]
      simp

theorem cjsonDecode_recordText (data : UserLastSendData) :
    cjsonDecode (recordText data) =
      some [decimal data.msgId, decimal data.clientTime, decimal data.msgTime] := by
  have text : recordText data =
      '[' :: '"' :: (decimal data.msgId ++ '"' :: ',' :: '"' ::
        (decimal data.clientTime ++ '"' :: ',' :: '"' ::
          (decimal data.msgTime ++ '"' :: [']']))) := by
    simp [recordText, cjsonEncode, List.intercalate]
  rw [text]
  simp only [cjsonDecode, cjsonItems, cjsonItems_inside _ _ (quote_not_mem_decimal _),
    List.reverse_nil, List.nil_append, Option.map_some]

theorem recordText_injective (same : recordText left = recordText right) :
    left.msgId = right.msgId ∧ left.clientTime = right.clientTime ∧
      left.msgTime = right.msgTime := by
  have read := cjsonDecode_recordText left
  rw [same, cjsonDecode_recordText right] at read
  simp only [Option.some.injEq, List.cons.injEq, and_true] at read
  obtain ⟨id, client, time⟩ := read
  exact ⟨(decimal_injective id).symm, (decimal_injective client).symm,
    (decimal_injective time).symm⟩

theorem recordOlder_recordText (old new : UserLastSendData) :
    recordOlder (recordText old) new = some (decide (old.clientTime < new.clientTime)) := by
  simp only [recordOlder, cjsonDecode_recordText, List.getElem?_cons_succ,
    List.getElem?_cons_zero, tonumber_decimal, Option.bind_eq_bind, Option.bind_some,
    Option.pure_def]

theorem setUserLastSendData_recordText (old new : UserLastSendData) :
    setUserLastSendData (some (recordText old)) new =
      some (recordText (if old.clientTime < new.clientTime then new else old)) := by
  simp only [setUserLastSendData, recordOlder_recordText, Option.some.injEq, decide_eq_true_eq]
  split <;> rfl

/-- `SetUserLastSendData_` on the keys `{user_id}u`. -/
def storeLastSend (redis : Int → Option Text) (data : UserLastSendData) : Int → Option Text :=
  Function.update redis data.userId (setUserLastSendData (redis data.userId) data)

/-- `GetUserLastSendData` when Redis and MySQL answer. -/
def getUserLastSendData (redis : Int → Option Text) (messages : List Row) (userId : Int) :
    UserLastSendData :=
  match redis userId with
  | some record => scanLastSend record
  | none => selectLastSend messages userId

/-- The pattern reads numbers without quotation marks. -/
theorem scanLastSend_unquoted (msgId clientTime msgTime : Int) :
    scanLastSend ('[' :: (decimal msgId ++ ',' :: (decimal clientTime ++ ',' ::
      (decimal msgTime ++ [']'])))) = { msgId, clientTime, msgTime } := by
  simp only [scanLastSend, scanInt_decimal _ (',' :: _) (by simp),
    scanInt_decimal _ [']'] (by simp)]

def RoundTrips (redis : Int → Option Text) (messages : List Row) (data : UserLastSendData) : Prop :=
  let read := getUserLastSendData (storeLastSend redis data) messages data.userId
  read.msgId = data.msgId ∧ read.clientTime = data.clientTime ∧ read.msgTime = data.msgTime

/-- Written under an absent key, a record reads back as zeros, so the numbers come back
exactly when they are all zero. -/
theorem last_send_round_trip_iff (messages : List Row) (data : UserLastSendData)
    (absent : redis data.userId = none) :
    RoundTrips redis messages data ↔
      data.msgId = 0 ∧ data.clientTime = 0 ∧ data.msgTime = 0 := by
  have read : getUserLastSendData (storeLastSend redis data) messages data.userId = {} := by
    simp only [getUserLastSendData, storeLastSend, Function.update_self, setUserLastSendData,
      absent, scanLastSend_recordText]
  simp only [RoundTrips, read, eq_comm]

theorem last_send_round_trip_iff_zeros : RoundTrips (fun _ => none) [] { userId := 7 } :=
  (last_send_round_trip_iff [] { userId := 7 } rfl).mpr ⟨rfl, rfl, rfl⟩

theorem stored_last_send_reads_zeros :
    getUserLastSendData (storeLastSend (fun _ => none) ⟨7, 1, 100, 50⟩) [] 7 = {} ∧
      ¬ RoundTrips (fun _ => none) [] ⟨7, 1, 100, 50⟩ := by
  refine ⟨rfl, ?_⟩
  rintro ⟨id, -⟩
  exact absurd id (by decide)

end Tinyim.Dbproxy
