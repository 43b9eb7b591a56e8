import Selection.Compile.Environment
import Selection.Value.Conversion

/-! # Sigils

A string of the form `{token}` or `{token}:suffix`, without a line feed, stands for a value: the
current time for the tokens `NOW`, `NOW:DATE` and `NOW:TIME`, and the value of a path in the context
for any other. The token is the longest that leaves an empty rest or one that begins with a colon.
The suffix `date` cuts a date-time to its midnight, `time` writes its time of day, and `null` does
so too but gives null for midnight. An instant is cut and read in the local zone, which is UTC here.
-/

namespace Selection.Sigil

/-- The longest token before a closing brace and the suffix behind it, if there is one. -/
def split? : List Char → Option (List Char × Option (List Char))
  | [] => none
  | c :: rest =>
    match split? rest with
    | some (token, suffix) => some (c :: token, suffix)
    | none =>
      if c = '\x7d' then
        match rest with
        | [] => some ([], none)
        | ':' :: suffix => some ([], some suffix)
        | _ => none
      else none

/-- The token and the suffix of a string in the form of a sigil. -/
def parse? (s : String) : Option (String × Option String) :=
  match s.toList with
  | '\x7b' :: rest =>
    if rest.contains '\n' then none
    else (split? rest).map fun (token, suffix) => (String.ofList token, suffix.map String.ofList)
  | _ => none

/-- The value of a token. -/
def token (env : Environment) (name : String) : Except CompileError Value :=
  if name = "NOW" then .ok (.timestampNaive env.now)
  else if name = "NOW:DATE" then .ok (.timestampNaive env.now.startOfDay)
  else if name = "NOW:TIME" then .ok (.time env.now.time)
  else env.lookup name

/-- What a suffix asks for. -/
inductive Suffix where
  | date
  | time
  | null
deriving DecidableEq

/-- The suffix of a name, its letters of any case. -/
def Suffix.ofName? (name : String) : Option Suffix :=
  let word := Text.lowerAscii name.toList
  if word = "date".toList then some date
  else if word = "time".toList then some time
  else if word = "null".toList then some null
  else none

/-- The date or date-time of a value, a string read as one. -/
def reading (v : Value) : Value :=
  match v with
  | .string s => (Value.readTemporal? s).getD v
  | v => v

/-- A date-time at its midnight, and a date itself. The midnight of an instant is that of the local
zone. -/
def date? : Value → Option Value
  | .timestampNaive t => some (.timestampNaive t.startOfDay)
  | .timestamp t => some (.timestamp t.startOfDay)
  | .date d => some (.date d)
  | _ => none

/-- The time of day of a value; that of a date is midnight. -/
def time? : Value → Option TimeOfDay
  | .timestampNaive t | .timestamp t => some t.time
  | .date _ => some .midnight
  | .time t => some t
  | _ => none

/-- What the time of day is written as; a midnight may be null. -/
def timeValue (nullable : Bool) (t : TimeOfDay) : Value :=
  let text := t.millisText
  if nullable && text == "00:00:00.000" then .null else .string text

/-- The value that a suffix makes of a value that is not null. -/
def Suffix.apply? (suffix : Suffix) (v : Value) : Option Value :=
  match suffix with
  | date => date? v
  | time => (time? v).map (timeValue false)
  | null => (time? v).map (timeValue true)

/-- Applies the suffix of a literal to the value of its token. -/
def applySuffix (literal suffix : String) (v : Value) : Except CompileError Value :=
  match Suffix.ofName? suffix with
  | none => .error (.invalidSigil literal suffix)
  | some suffix =>
    if v.isNull then .ok .null
    else
      let v := reading v
      match suffix.apply? v with
      | some v => .ok v
      | none => .error (.typeCoercionFailure v.plainText v.dataType literal .timestampNaive)

/-- The value that a literal stands for; what is no sigil stands for itself. -/
def resolve (env : Environment) (v : Value) : Except CompileError Value :=
  match v with
  | .string s =>
    match parse? s with
    | none => .ok v
    | some (name, suffix) => do
      let value ← token env name
      match suffix with
      | none => return value
      | some suffix => applySuffix s suffix value
  | v => .ok v

end Selection.Sigil
