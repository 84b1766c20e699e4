import ZimaControl.Lib.NumberText

/-!
# Cron expressions

`cron-validator.ts` and the parser of `cron-evaluator.ts`. An expression has five fields; a field is
`*` or a list of atoms; an atom is a number, a range `a-b`, or a range or `*` with a step behind a
slash. The validator reads a step with `Number`, the parser with `parseInt`.

The loops of the parser answer `none` when their rounds do not suffice: a loop whose step is zero
does not end.
-/

namespace ZimaControl

/-! ## Errors -/

/-- `BackupDomainError`, with its message and code. -/
structure BackupDomainError where
  message : JsString
  code : JsString
  deriving DecidableEq

/-- `new BackupCronInvalidError(expression)`. -/
def backupCronInvalidError (expression : JsString) : BackupDomainError where
  message := js "Invalid cron expression: '" ++ expression ++ js "'"
  code := js "CRON_EXPRESSION_INVALID"

/-! ## Fields -/

/-- The five fields of an expression. -/
inductive CronColumn
  | minute
  | hour
  | dayOfMonth
  | month
  | dayOfWeek
  deriving DecidableEq

namespace CronColumn

/-- The place of a field in the expression. -/
def index : CronColumn → ℕ
  | minute => 0
  | hour => 1
  | dayOfMonth => 2
  | month => 3
  | dayOfWeek => 4

/-- The least value of a field, from `FIELD_BOUNDS`. -/
def min : CronColumn → ℕ
  | minute | hour | dayOfWeek => 0
  | dayOfMonth | month => 1

/-- The greatest value of a field, from `FIELD_BOUNDS`. -/
def max : CronColumn → ℕ
  | minute => 59
  | hour => 23
  | dayOfMonth => 31
  | month => 12
  | dayOfWeek => 7

/-- The fields in their order. -/
def all : List CronColumn := [minute, hour, dayOfMonth, month, dayOfWeek]

end CronColumn

/-- `trimmed.split(/\s+/)` of a trimmed text. -/
def splitFields (trimmed : JsString) : List JsString :=
  (trimmed.splitOnP isWhiteSpace).filter (· ≠ [])

/-- A field of an expression. -/
def cronField (expression : JsString) (column : CronColumn) : JsString :=
  (splitFields (trim expression)).getD column.index []

/-! ## The validator -/

/-- `Number.isInteger(x) && x >= min && x <= max`. -/
def withinBounds (x : JsNumber) (min max : ℕ) : Bool :=
  x.isInteger && JsNumber.le (.finite min) x && x.le (.finite max)

/-- `validateRange`. -/
def validateRange (rangeStr : JsString) (min max : ℕ) : Bool :=
  match rangeStr.splitOn (unit '-') with
  | [startStr, endStr] =>
    if isDigits startStr = false ∨ isDigits endStr = false then false
    else
      let start := stringToNumber startStr
      let stop := stringToNumber endStr
      withinBounds start min max && withinBounds stop min max && start.le stop
  | _ => false

/-- `validateCronAtom`. -/
def validateCronAtom (atom : JsString) (min max : ℕ) : Bool :=
  if unit '/' ∈ atom then
    match atom.splitOn (unit '/') with
    | rangePart :: stepPart :: _ =>
      if rangePart = [] ∨ stepPart = [] then false
      else
        let step := stringToNumber stepPart
        if step.isInteger = false ∨ step.le (.finite 0) ∨ ¬ step.le (.finite max) then false
        else if rangePart = js "*" then true
        else validateRange rangePart min max
    | _ => false
  else if unit '-' ∈ atom then validateRange atom min max
  else if isDigits atom then withinBounds (stringToNumber atom) min max
  else false

/-- `validateCronField`. -/
def validateCronField (field : JsString) (min max : ℕ) : Bool :=
  if field = js "*" then true
  else
    let subparts := field.splitOn (unit ',')
    if subparts.any (· = []) then false else subparts.all (validateCronAtom · min max)

/-- A code unit of `[\u0000-\u001f\u007f]`. -/
def isControl (u : CodeUnit) : Bool := u.toNat ≤ 0x1f || u.toNat = 0x7f

/-- `validateCronExpression` of a string. -/
def validateCronExpression (rawExpression : JsString) : Bool :=
  let trimmed := trim rawExpression
  if trimmed = [] then false
  else if trimmed.any isControl then false
  else if (splitFields trimmed).length ≠ 5 then false
  else CronColumn.all.all fun column =>
    validateCronField (cronField rawExpression column) column.min column.max

/-! ## The parser -/

/-- `set.add(value)`. -/
def setAdd (set : List JsNumber) (value : JsNumber) : List JsNumber :=
  if value ∈ set then set else set ++ [value]

/-- `isDayOfWeek && i === 7 ? 0 : i`. -/
def dayOfWeekValue (isDayOfWeek : Bool) (i : JsNumber) : JsNumber :=
  if isDayOfWeek && i = .finite 7 then .finite 0 else i

/-- `for (let i = start; i <= end; i += step) result.add(...)`, with so many rounds at most. -/
def addSteps (isDayOfWeek : Bool) (stop step : JsNumber) :
    ℕ → JsNumber → List JsNumber → Option (List JsNumber)
  | 0, i, result => if i.le stop then none else some result
  | rounds + 1, i, result =>
    if i.le stop then
      addSteps isDayOfWeek stop step rounds (i.add step)
        (setAdd result (dayOfWeekValue isDayOfWeek i))
    else some result

/-- `rangePart.split("-").map(Number)`, the second number `max` when missing. -/
def rangeNumbers (rangePart : JsString) (max : ℕ) : JsNumber × JsNumber :=
  match (rangePart.splitOn (unit '-')).map stringToNumber with
  | start :: stop :: _ => (start, stop)
  | [start] => (start, .finite max)
  | [] => (.nan, .finite max)

/-- The body of the loop of `parseCronField`. -/
def parseCronPart (rounds : ℕ) (min max : ℕ) (isDayOfWeek : Bool) (result : List JsNumber)
    (part : JsString) : Option (List JsNumber) :=
  if unit '/' ∈ part then
    match part.splitOn (unit '/') with
    | rangePart :: stepPart :: _ =>
      let step := parseInt10 stepPart
      let (start, stop) :=
        if rangePart ≠ js "*" then rangeNumbers rangePart max else (.finite min, .finite max)
      addSteps isDayOfWeek stop step rounds start result
    | _ => some result
  else if unit '-' ∈ part then
    let (start, stop) := rangeNumbers part max
    addSteps isDayOfWeek stop (.finite 1) rounds start result
  else if part = js "*" then
    addSteps isDayOfWeek (.finite max) (.finite 1) rounds (.finite min) result
  else some (setAdd result (dayOfWeekValue isDayOfWeek (stringToNumber part)))

/-- `parseCronField`. -/
def parseCronField (rounds : ℕ) (field : JsString) (min max : ℕ) (isDayOfWeek : Bool) :
    Option (List JsNumber) :=
  (field.splitOn (unit ',')).foldlM (parseCronPart rounds min max isDayOfWeek) []

/-- `ParsedCronSchedule`. -/
structure ParsedCronSchedule where
  minutes : List JsNumber
  hours : List JsNumber
  daysOfMonth : List JsNumber
  months : List JsNumber
  daysOfWeek : List JsNumber
  isDayOfMonthWildcard : Bool
  isDayOfWeekWildcard : Bool
  deriving DecidableEq

/-- The set of a field. -/
def ParsedCronSchedule.set (schedule : ParsedCronSchedule) : CronColumn → List JsNumber
  | .minute => schedule.minutes
  | .hour => schedule.hours
  | .dayOfMonth => schedule.daysOfMonth
  | .month => schedule.months
  | .dayOfWeek => schedule.daysOfWeek

/-- `parseCronSchedule`, with so many rounds at most for each of its loops. -/
def parseCronSchedule (rounds : ℕ) (expression : JsString) :
    Option (Except BackupDomainError ParsedCronSchedule) :=
  if validateCronExpression expression = false then
    some (.error (backupCronInvalidError expression))
  else do
    let minutes ← parseCronField rounds (cronField expression .minute) 0 59 false
    let hours ← parseCronField rounds (cronField expression .hour) 0 23 false
    let daysOfMonth ← parseCronField rounds (cronField expression .dayOfMonth) 1 31 false
    let months ← parseCronField rounds (cronField expression .month) 1 12 false
    let daysOfWeek ← parseCronField rounds (cronField expression .dayOfWeek) 0 7 true
    return .ok
      { minutes, hours, daysOfMonth, months, daysOfWeek
        isDayOfMonthWildcard := cronField expression .dayOfMonth = js "*"
        isDayOfWeekWildcard := cronField expression .dayOfWeek = js "*" }

example : (parseCronSchedule 60 (js " */20 4-6 1,15 * 5-7 ")).map (·.toOption) = some (some
    { minutes := [.finite 0, .finite 20, .finite 40]
      hours := [.finite 4, .finite 5, .finite 6]
      daysOfMonth := [.finite 1, .finite 15]
      months := (List.range 12).map fun n => .finite (n + 1)
      daysOfWeek := [.finite 5, .finite 6, .finite 0]
      isDayOfMonthWildcard := false
      isDayOfWeekWildcard := false }) := by
  decide +kernel

end ZimaControl
