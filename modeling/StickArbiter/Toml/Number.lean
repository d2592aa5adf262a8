import StickArbiter.Decimal.Rounding
import StickArbiter.Toml.Reader

/-!
# Numbers, dates and times of a TOML text

Integers have 64 bits and may be written in four bases; underscores may stand between digits. A real
is the nearest double, and one above all finite doubles is refused. Dates and times only have to be
possible ones.
-/

namespace StickArbiter.Toml.Reader

/-! ## Integers -/

/-- A digit after an underscore or after another digit. -/
def nextDigit (p : Char → Bool) : Reader Char :=
  either (character p) do
    mark ['_']
    settle (expecting ["digit"] (character p))

/-- Digits that may be separated by single underscores. -/
def digits (p : Char → Bool) : Reader (List Char) := do
  let c ← character p
  let cs ← many (nextDigit p)
  pure (c :: cs)

/-- A sign if there is one; true for a minus sign. -/
def sign : Reader Bool := do
  let s ← optional (character fun c => c = '+' || c = '-')
  pure (s = some '-')

/-- An integer in base ten: whether it has a minus sign, and its digits. A leading zero stands
alone. -/
def decimalInteger : Reader (Bool × List Char) := within "integer" do
  let negative ← sign
  let ds ← if (← peek) = some '0' then do
      mark ['0']
      pure ['0']
    else digits Char.isDigit
  pure (negative, ds)

/-- An integer of 64 bits with its sign. -/
def ofWord (n : Int) : Except Fault Int :=
  if Int64.maxValue.toInt < n then .error (.ofBreach .tooLarge)
  else if n < Int64.minValue.toInt then .error (.ofBreach .tooSmall)
  else .ok n

def based (base : Nat) (start : List Char) (part : String) : Reader Int :=
  settle <| checked
    (within part do
      mark start
      settle (digits fun c => (hexDigit? c).any (· < base)))
    fun ds => ofWord (digitsValue base ds)

def integer : Reader Int := fun text =>
  match text with
  | '0' :: 'x' :: _ => based 16 ['0', 'x'] "hexadecimal integer" text
  | '0' :: 'o' :: _ => based 8 ['0', 'o'] "octal integer" text
  | '0' :: 'b' :: _ => based 2 ['0', 'b'] "binary integer" text
  | _ =>
    checkedForGood decimalInteger (fun (negative, ds) =>
      let n : Int := digitsValue 10 ds
      ofWord (if negative then -n else n)) text

/-! ## Reals -/

def exponent : Reader Int := do
  let _ ← character fun c => c = 'e' || c = 'E'
  let below ← sign
  let ds ← settle (digits Char.isDigit)
  let e : Int := digitsValue 10 ds
  pure (if below then -e else e)

def places : Reader (List Char) := do
  mark ['.']
  settle (expecting ["digit"] (digits Char.isDigit))

/-- A real in digits: it has places or an exponent or both. -/
def realDigits : Reader Float := do
  let (negative, whole) ← decimalInteger
  let (fraction, e) ← either
    (do
      let e ← exponent
      pure ([], e))
    (do
      let fraction ← places
      let e ← optional exponent
      pure (fraction, e.getD 0))
  pure (Decimal.ofDecimal negative (digitsValue 10 (whole ++ fraction)) (e - fraction.length))

def infinity : Reader Float := do
  mark ['i', 'n', 'f']
  pure (1.0 / 0.0)

def notANumber : Reader Float := do
  mark ['n', 'a', 'n']
  pure (0.0 / 0.0)

/-- A real. One that has no digits may still have a sign. -/
def real : Reader Float := within "floating-point number" <|
  either
    (checkedForGood realDigits fun x => if x.isInf && 0 < x then .error {} else .ok x)
    (do
      let negative ← sign
      let x ← either infinity notANumber
      pure (if negative then -x else x))

/-! ## Dates and times -/

def bounded (count low high : Nat) : Reader Nat :=
  checked
    (fun text =>
      let ds := (text.take count).takeWhile Char.isDigit
      if ds.length = count then .ok (digitsValue 10 ds, text.drop count) else giveWay text)
    fun n => if low ≤ n && n ≤ high then .ok n else .error (.ofBreach .outOfRange)

def time : Reader Unit := do
  let _ ← bounded 2 0 23
  mark [':']
  settle do
    let _ ← bounded 2 0 59
    mark [':']
    let _ ← bounded 2 0 60
    let _ ← optional do
      mark ['.']
      let _ ← character Char.isDigit
      takeWhile Char.isDigit

def zone : Reader Unit := within "time offset" <|
  either
    (do
      let _ ← character fun c => c = 'Z' || c = 'z')
    (do
      let _ ← character fun c => c = '+' || c = '-'
      settle do
        let _ ← bounded 2 0 23
        mark [':']
        let _ ← bounded 2 0 59)

def daysOf (year month : Nat) : Nat :=
  if month = 2 then
    if year % 4 = 0 && (year % 100 ≠ 0 || year % 400 = 0) then 29 else 28
  else if month = 4 || month = 6 || month = 9 || month = 11 then 30
  else 31

def date : Reader Unit := do
  let year ← bounded 4 0 9999
  mark ['-']
  settle do
    let month ← bounded 2 1 12
    mark ['-']
    checked (bounded 2 1 31) fun day =>
      if daysOf year month < day then .error (.ofBreach .outOfRange) else .ok ()

def moment : Reader Unit :=
  either
    (within "date-time" do
      date
      let _ ← optional do
        let _ ← character fun c => c = 'T' || c = 't' || c = ' '
        time
        optional zone)
    (within "time" time)

end StickArbiter.Toml.Reader
