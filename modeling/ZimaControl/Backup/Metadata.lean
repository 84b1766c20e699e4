import Mathlib.Data.List.Infix
import ZimaControl.Lib.Json

/-!
# Redaction of backup metadata

`sanitizeBackupMetadata` rebuilds an object and replaces what stands under a sensitive key. It
descends into objects only: an array is copied with the objects inside it. The result is filled by
assignment to a plain object, and an assignment to `__proto__` makes no property.

`JsonValue.property` reads a property as the language does; an array has its indices as keys, so one
notion of position serves both.
-/

namespace ZimaControl

namespace JsonValue

/-- The properties of an array from an index on. -/
def indexed : ℕ → List JsonValue → List (JsString × JsonValue)
  | _, [] => []
  | i, item :: items => (decimal i, item) :: indexed (i + 1) items

/-- `Object.entries`. -/
def entries : JsonValue → List (JsString × JsonValue)
  | object fields => fields
  | array items => indexed 0 items
  | _ => []

/-- `value && typeof value === "object"`. -/
def isObject : JsonValue → Bool
  | object _ | array _ => true
  | _ => false

/-- `value[key]`, of own properties. -/
def property (value : JsonValue) (key : JsString) : Option JsonValue :=
  (value.entries.find? (·.1 = key)).map (·.2)

/-- What stands at a path of keys. -/
def at? (value : JsonValue) : List JsString → Option JsonValue
  | [] => some value
  | key :: path => (value.property key).bind (·.at? path)

theorem at?_append (value : JsonValue) (path path' : List JsString) :
    value.at? (path ++ path') = (value.at? path).bind (·.at? path') := by
  induction path generalizing value with
  | nil => rfl
  | cons key path ih =>
    simp only [List.cons_append, at?, Option.bind_assoc]
    exact congrArg _ (funext fun v => ih v)

end JsonValue

open JsonValue

/-- `SENSITIVE_KEYS`. The flag `i` folds ASCII letters; nothing else folds to one. -/
def isSensitiveKey (key : JsString) : Bool :=
  ["password", "secret", "token", "credential", "key", "auth"].any fun word =>
    js word <:+: key.map asciiLower

/-- `"***REDACTED***"`. -/
def redacted : JsonValue := .string (js "***REDACTED***")

/-- The key whose assignment sets the prototype. -/
def protoKey : JsString := js "__proto__"

/-- `sanitized[key] = value`, in front of what is assigned later. -/
def assign (key : JsString) (value : JsonValue) (rest : List (JsString × JsonValue)) :
    List (JsString × JsonValue) :=
  if key = protoKey then rest else (key, if isSensitiveKey key then redacted else value) :: rest

mutual

/-- `sanitizeBackupMetadata`. -/
def sanitizeBackupMetadata : JsonValue → JsonValue
  | .object fields => .object (sanitizeEntries fields)
  | .array items => .object (sanitizeItems 0 items)
  | _ => .object []

/-- What is assigned under a key that is not sensitive: an object that is no array is sanitized. -/
def sanitizeValue : JsonValue → JsonValue
  | .object fields => .object (sanitizeEntries fields)
  | value => value

/-- The loop over the entries of an object. -/
def sanitizeEntries : List (JsString × JsonValue) → List (JsString × JsonValue)
  | [] => []
  | (key, value) :: rest => assign key (sanitizeValue value) (sanitizeEntries rest)

/-- The loop over the entries of an array. -/
def sanitizeItems : ℕ → List JsonValue → List (JsString × JsonValue)
  | _, [] => []
  | i, value :: rest => assign (decimal i) (sanitizeValue value) (sanitizeItems (i + 1) rest)

end

/-- An object under a key is sanitized by the function itself. -/
theorem sanitizeValue_object (fields : List (JsString × JsonValue)) :
    sanitizeValue (.object fields) = sanitizeBackupMetadata (.object fields) := by
  rw [sanitizeValue, sanitizeBackupMetadata]

variable {v o w : JsonValue} {key : JsString} {fields : List (JsString × JsonValue)}

/-- Arrays and objects are sanitized by their entries. -/
theorem sanitizeBackupMetadata_eq (h : v.isObject = true) :
    sanitizeBackupMetadata v = .object (sanitizeEntries v.entries) := by
  have hitems : ∀ (items : List JsonValue) (i : ℕ),
      sanitizeItems i items = sanitizeEntries (indexed i items) := by
    intro items
    induction items with
    | nil =>
      intro i
      rw [sanitizeItems, indexed, sanitizeEntries]
    | cons item items ih =>
      intro i
      rw [sanitizeItems, indexed, sanitizeEntries, ih]
  cases v with
  | object fields => rw [sanitizeBackupMetadata, entries]
  | array items => rw [sanitizeBackupMetadata, entries, hitems]
  | _ => cases h

/-- The properties of the result. -/
theorem property_sanitize (h : v.isObject = true) (key : JsString) :
    (sanitizeBackupMetadata v).property key = if key = protoKey then none else
      (v.property key).map fun w => if isSensitiveKey key then redacted else sanitizeValue w := by
  rw [sanitizeBackupMetadata_eq h, property, property, entries]
  induction v.entries with
  | nil => simp [sanitizeEntries]
  | cons entry rest ih =>
    obtain ⟨k, w⟩ := entry
    rw [sanitizeEntries, assign]
    by_cases hk : k = key
    · subst hk
      split_ifs with hproto
      · rw [ih, if_pos hproto]
      · simp
      · simp
    · split_ifs at ih ⊢ <;> simp [hk, ih]

/-! ## What is kept -/

/-- At some depth, also inside arrays, a sensitive key holds something else than the redaction. -/
inductive Exposes : JsonValue → Prop
  | here {v w : JsonValue} {key : JsString} (property : v.property key = some w)
      (sensitive : isSensitiveKey key = true) (kept : w ≠ redacted) : Exposes v
  | inside {v w : JsonValue} {key : JsString} (property : v.property key = some w)
      (exposes : Exposes w) : Exposes v

/-- The objects that the function rewrites, with their paths: the value itself, and objects under
keys of rewritten ones. -/
inductive Rewritten (v : JsonValue) : List JsString → JsonValue → Prop
  | top : Rewritten v [] v
  | field {path : List JsString} {o : JsonValue} {key : JsString}
      {fields : List (JsString × JsonValue)} (above : Rewritten v path o)
      (property : o.property key = some (.object fields)) (plain : isSensitiveKey key = false)
      (own : key ≠ protoKey) : Rewritten v (path ++ [key]) (.object fields)

variable {path : List JsString}

/-- A path that starts under a key of the value. -/
theorem Rewritten.cons (h : Rewritten (.object fields) path o)
    (hproperty : v.property key = some (.object fields)) (hplain : isSensitiveKey key = false)
    (hown : key ≠ protoKey) : Rewritten v (key :: path) o := by
  induction h with
  | top => exact .field .top hproperty hplain hown
  | field _ hfield hplain' hown' ih => exact .field ih hfield hplain' hown'

/-- A rewritten object stands rewritten at its path. -/
theorem Rewritten.at? (hv : v.isObject = true) (h : Rewritten v path o) :
    o.isObject = true ∧ v.at? path = some o ∧
      (sanitizeBackupMetadata v).at? path = some (sanitizeBackupMetadata o) := by
  induction h with
  | top => exact ⟨hv, rfl, rfl⟩
  | field _ hproperty hplain hown ih =>
    obtain ⟨ho, hat, hsanitized⟩ := ih
    refine ⟨rfl, ?_, ?_⟩
    · simp [at?_append, hat, JsonValue.at?, hproperty]
    · simp [at?_append, hsanitized, JsonValue.at?, property_sanitize ho, hproperty, hplain, hown,
        sanitizeValue_object]

/-- What a rewritten object exposes, the result exposes. -/
theorem Rewritten.exposes (hv : v.isObject = true) (h : Rewritten v path o)
    (hexposes : Exposes (sanitizeBackupMetadata o)) : Exposes (sanitizeBackupMetadata v) := by
  induction h with
  | top => exact hexposes
  | @field _ _ key _ above hproperty hplain hown ih =>
    have hkept := property_sanitize (above.at? hv).1 key
    rw [if_neg hown, hproperty, Option.map_some, hplain, sanitizeValue_object] at hkept
    exact ih (.inside hkept hexposes)

/-- The redaction is no object. -/
theorem not_exposes_redacted : ¬ Exposes redacted := by
  intro h
  cases h with
  | here hproperty => cases hproperty
  | inside hproperty => cases hproperty

/-- The result exposes exactly what an array under a key of a rewritten object exposes. -/
theorem exposes_sanitize_iff (hv : v.isObject = true) :
    Exposes (sanitizeBackupMetadata v) ↔ ∃ path o key items, Rewritten v path o ∧
      o.property key = some (.array items) ∧ isSensitiveKey key = false ∧ key ≠ protoKey ∧
      Exposes (.array items) := by
  constructor
  · intro h
    -- By induction on where the result exposes; an object on the way was sanitized itself.
    generalize hs : sanitizeBackupMetadata v = s at h
    induction h generalizing v with
    | @here s w key hproperty hsensitive hkept =>
      rw [← hs, property_sanitize hv] at hproperty
      by_cases hproto : key = protoKey
      · rw [if_pos hproto] at hproperty
        cases hproperty
      · rw [if_neg hproto, hsensitive] at hproperty
        obtain ⟨_, -, rfl⟩ := Option.map_eq_some_iff.mp hproperty
        exact absurd rfl hkept
    | @inside s w key hproperty hinside ih =>
      rw [← hs, property_sanitize hv] at hproperty
      by_cases hproto : key = protoKey
      · rw [if_pos hproto] at hproperty
        cases hproperty
      rw [if_neg hproto] at hproperty
      obtain ⟨value, hvalue, rfl⟩ := Option.map_eq_some_iff.mp hproperty
      cases hplain : isSensitiveKey key with
      | true =>
        rw [hplain] at hinside
        exact absurd hinside not_exposes_redacted
      | false =>
        simp only [hplain, Bool.false_eq_true, if_false] at hinside ih
        cases value with
        | object fields =>
          obtain ⟨path, o, k, items, hrewritten, hrest⟩ :=
            @ih (.object fields) rfl (sanitizeValue_object fields).symm
          exact ⟨key :: path, o, k, items, hrewritten.cons hvalue hplain hproto, hrest⟩
        | array items => exact ⟨[], v, key, items, .top, hvalue, hplain, hproto, hinside⟩
        | _ =>
          cases hinside with
          | here hproperty => cases hproperty
          | inside hproperty => cases hproperty
  · rintro ⟨path, o, key, items, hrewritten, hproperty, hplain, hown, hexposes⟩
    have hkept := property_sanitize (hrewritten.at? hv).1 key
    rw [if_neg hown, hproperty, hplain] at hkept
    exact hrewritten.exposes hv (.inside hkept hexposes)

/-- A scalar under no sensitive key stays, unless it stands under `__proto__` in a rewritten object.
-/
theorem scalar_kept (hv : v.isObject = true) (hplain : ∀ key ∈ path, isSensitiveKey key = false)
    (hat : v.at? path = some w) (hw : w.isObject = false)
    (hproto : ∀ before o after, Rewritten v before o → path ≠ before ++ protoKey :: after) :
    (sanitizeBackupMetadata v).at? path = some w := by
  induction path generalizing v with
  | nil =>
    obtain rfl := Option.some.inj hat
    rw [hv] at hw
    cases hw
  | cons key path ih =>
    obtain ⟨value, hvalue, hrest⟩ := Option.bind_eq_some_iff.mp hat
    have hkey := hplain key List.mem_cons_self
    have hown : key ≠ protoKey := fun h => hproto [] v path .top (by rw [h]; rfl)
    rw [JsonValue.at?, property_sanitize hv, if_neg hown, hvalue, hkey]
    cases value with
    | object fields =>
      change (sanitizeValue _).at? path = _
      rw [sanitizeValue_object]
      refine ih rfl (fun k hk => hplain k (List.mem_cons_of_mem _ hk)) hrest ?_
      rintro before o after hrewritten rfl
      exact hproto _ o after (hrewritten.cons hvalue hkey hown) rfl
    | _ => exact hrest

/-- An assignment that is sanitized again. -/
theorem sanitizeEntries_assign (key : JsString) (value : JsonValue)
    (rest : List (JsString × JsonValue)) (hvalue : sanitizeValue value = value)
    (hrest : sanitizeEntries rest = rest) :
    sanitizeEntries (assign key value rest) = assign key value rest := by
  unfold assign
  by_cases hproto : key = protoKey
  · rw [if_pos hproto, hrest]
  · rw [if_neg hproto, sanitizeEntries, assign, if_neg hproto, hrest]
    split_ifs
    · rfl
    · rw [hvalue]

mutual

/-- What was sanitized under a key stays. -/
theorem sanitizeValue_idempotent : ∀ v, sanitizeValue (sanitizeValue v) = sanitizeValue v
  | .object fields => by rw [sanitizeValue, sanitizeValue, sanitizeEntries_idempotent fields]
  | .null | .bool _ | .number _ | .string _ | .array _ => rfl

theorem sanitizeEntries_idempotent :
    ∀ fields, sanitizeEntries (sanitizeEntries fields) = sanitizeEntries fields
  | [] => rfl
  | (key, value) :: rest => by
    rw [sanitizeEntries]
    exact sanitizeEntries_assign key _ _ (sanitizeValue_idempotent value)
      (sanitizeEntries_idempotent rest)

end

/-- Nothing sensitive is kept at any depth, every other scalar stays where it was, and a second pass
changes nothing. -/
structure RedactsCompletely (v : JsonValue) : Prop where
  hidden : ¬ Exposes (sanitizeBackupMetadata v)
  kept : ∀ path w, (∀ key ∈ path, isSensitiveKey key = false) → v.at? path = some w →
    w.isObject = false → (sanitizeBackupMetadata v).at? path = some w
  stable : sanitizeBackupMetadata (sanitizeBackupMetadata v) = sanitizeBackupMetadata v

/-- Redaction is complete exactly when no array under a plain key of a rewritten object exposes
anything, and no scalar under plain keys stands below `__proto__` in a rewritten object. -/
theorem redacts_completely_iff (v : JsonValue) (hv : v.isObject = true) :
    RedactsCompletely v ↔
      (∀ path o key items, Rewritten v path o → o.property key = some (.array items) →
        isSensitiveKey key = false → key ≠ protoKey → ¬ Exposes (.array items)) ∧
      ∀ path o below w, Rewritten v path o → o.at? (protoKey :: below) = some w →
        w.isObject = false → ¬ ∀ key ∈ below, isSensitiveKey key = false := by
  have hpath : ∀ {path o}, Rewritten v path o → ∀ key ∈ path, isSensitiveKey key = false := by
    intro path o h
    induction h with
    | top => simp
    | field _ _ hplain _ ih =>
      intro k hk
      rcases List.mem_append.mp hk with hk | hk
      · exact ih k hk
      · rwa [List.mem_singleton.mp hk]
  constructor
  · intro h
    refine ⟨fun path o key items hrewritten hproperty hplain hown hexposes => h.hidden
      ((exposes_sanitize_iff hv).mpr
        ⟨path, o, key, items, hrewritten, hproperty, hplain, hown, hexposes⟩), ?_⟩
    -- The scalar is at its place before, and its way is cut off after.
    intro path o below w hrewritten hat hw hbelow
    obtain ⟨ho, hbefore, hafter⟩ := hrewritten.at? hv
    have hkept := h.kept (path ++ protoKey :: below) w ?_ (by rw [at?_append, hbefore]; exact hat) hw
    · rw [at?_append, hafter, Option.bind_some, JsonValue.at?, property_sanitize ho, if_pos rfl] at hkept
      cases hkept
    intro key hkey
    rcases List.mem_append.mp hkey with hkey | hkey
    · exact hpath hrewritten key hkey
    · rcases List.mem_cons.mp hkey with rfl | hkey
      · decide
      · exact hbelow key hkey
  · rintro ⟨harrays, hproto⟩
    refine ⟨fun hexposes => ?_, fun path w hplain hat hw => ?_, ?_⟩
    · obtain ⟨path, o, key, items, hrewritten, hproperty, hplain, hown, hinside⟩ :=
        (exposes_sanitize_iff hv).mp hexposes
      exact harrays path o key items hrewritten hproperty hplain hown hinside
    · refine scalar_kept hv hplain hat hw ?_
      rintro before o after hrewritten rfl
      rw [at?_append, (hrewritten.at? hv).2.1] at hat
      exact hproto before o after w hrewritten hat hw fun key hkey =>
        hplain key (List.mem_append_right _ (List.mem_cons_of_mem _ hkey))
    · rw [sanitizeBackupMetadata_eq hv, sanitizeBackupMetadata, sanitizeEntries_idempotent]

/-- A property is one of the entries. -/
theorem mem_entries_of_property (h : v.property key = some w) : (key, w) ∈ v.entries := by
  obtain ⟨⟨key', w'⟩, hfind, rfl⟩ := Option.map_eq_some_iff.mp h
  obtain rfl : key' = key := by simpa using List.find?_some hfind
  exact List.mem_of_find?_eq_some hfind

/-- An object with a password. -/
def connectionMetadata : JsonValue :=
  .object [(js "user", .string (js "app")), (js "dbPassword", .string (js "hunter2"))]

/-- Metadata with such an object inside, beside a scalar and an array. -/
def databaseMetadata : JsonValue :=
  .object [(js "host", .string (js "db")), (js "connection", connectionMetadata),
    (js "tables", .array [.string (js "users")])]

/-- The password inside is redacted, and the array stays. -/
theorem redacts_completely_iff_databaseMetadata :
    RedactsCompletely databaseMetadata ∧
      (sanitizeBackupMetadata databaseMetadata).at? [js "connection", js "dbPassword"] =
        some redacted := by
  have hrewritten : ∀ path o, Rewritten databaseMetadata path o →
      o = databaseMetadata ∨ o = connectionMetadata := by
    intro path o h
    induction h with
    | top => exact .inl rfl
    | field _ hproperty _ _ ih =>
      have hmem := mem_entries_of_property hproperty
      rcases ih with rfl | rfl <;> simp [databaseMetadata, connectionMetadata, entries] at hmem ⊢
      exact .inr hmem.2
  refine ⟨(redacts_completely_iff _ rfl).mpr ⟨?_, ?_⟩, rfl⟩
  · -- the only array holds a text under its index
    intro path o key items h hproperty _ _ hexposes
    have hmem := mem_entries_of_property hproperty
    rcases hrewritten path o h with rfl | rfl <;>
      simp [databaseMetadata, connectionMetadata, entries] at hmem
    obtain ⟨-, rfl⟩ := hmem
    cases hexposes with
    | here hitem hsensitive =>
      obtain ⟨rfl, -⟩ : _ = decimal 0 ∧ _ := by
        simpa [entries, indexed] using mem_entries_of_property hitem
      cases hsensitive
    | inside hitem hinside =>
      obtain ⟨-, rfl⟩ : _ ∧ _ = JsonValue.string (js "users") := by
        simpa [entries, indexed] using mem_entries_of_property hitem
      cases hinside with
      | here hnone => cases hnone
      | inside hnone => cases hnone
  · intro path o below w h hat
    rcases hrewritten path o h with rfl | rfl <;> cases hat

/-- An object inside an array keeps its password. -/
theorem array_keeps_password :
    ¬ RedactsCompletely
      (.object [(js "users", .array [.object [(js "password", .string (js "x"))]])]) := by
  intro h
  apply h.hidden
  apply @Exposes.inside _ _ (js "users") rfl
  apply @Exposes.inside _ _ (js "0") rfl
  apply @Exposes.here _ _ (js "password") rfl (by decide)
  intro heq
  cases heq

end ZimaControl
