import Ridm.Core.JsonText
import Ridm.Core.Text
import Ridm.Core.Types

/-!
# Profile attributes

`api/src/services/profile_schema.rs`: `validate_attributes`, through which every write of a user's
attributes passes.  Each attribute is judged on its own (`judge`): unknown, not the editor's to
change, cleared, refused by the type its definition gives it, or accepted in a canonical form.
What the editor may not touch is kept, and required attributes must be there in the end.

An import writes as `Editor.system`, which may touch everything; `validateAttributes_system` is what
validation comes to for it.
-/

namespace Ridm.Users

/-- Unicode lower-casing, floating point, and what the validating crates decide. -/
structure Platform where
  /-- `str::to_lowercase`. -/
  toLowercase : String → String
  /-- `validator::ValidateEmail::validate_email`. -/
  validateEmail : String → Bool
  /-- `RegexBuilder::new(p).size_limit(..).build()`, by what the expression matches. -/
  regex : String → Option (String → Bool)
  /-- `Url::parse(s)`, by the scheme. -/
  urlScheme : String → Option String
  /-- `NaiveDate::parse_from_str(s, "%Y-%m-%d")`, by the date's own text. -/
  parseDate : String → Option String
  /-- `Number::as_f64`, of a number by its text. -/
  asF64 : String → Float
  f64Text : Float → String

/-! ## Contact data -/

/-- `char::is_control`. -/
def isControl (c : Char) : Bool := c.toNat < 0x20 || (0x7F ≤ c.toNat && c.toNat ≤ 0x9F)

def normalizeUsername (P : Platform) (raw : String) : Except AppError String :=
  let u := P.toLowercase (trim raw)
  if u.isEmpty ∨ 255 < u.utf8ByteSize then
    .error (.badRequest "username must be 1-255 characters")
  else if u.toList.any isWhitespace ∨ u.toList.any isControl then
    .error (.badRequest "username must not contain whitespace")
  else .ok u

def normalizeEmail (P : Platform) (raw : String) : Except AppError String :=
  let e := P.toLowercase (trim raw)
  if 320 < e.utf8ByteSize ∨ P.validateEmail e = false then
    .error (.badRequest "invalid email address")
  else .ok e

def normalizePhone (raw : String) : Except AppError String :=
  let p := String.ofList (raw.toList.filter fun c => !isWhitespace c)
  let digits := (stripPrefix p "+").getD p
  if (stripPrefix p "+").isNone ∨ digits.utf8ByteSize < 7 ∨ 15 < digits.utf8ByteSize ∨
      ¬ digits.toList.all isAsciiDigit then
    .error (.badRequest "phone must be in E.164 format")
  else .ok p

lemma normalizePhone_normal {raw p : String} (h : normalizePhone raw = .ok p) :
    (∀ c ∈ p.toList, isWhitespace c = false) ∧ normalizePhone p = .ok p := by
  have heq : p = String.ofList (raw.toList.filter fun c => !isWhitespace c) := by
    rw [normalizePhone] at h
    split_ifs at h
    cases h
    rfl
  have hnone : ∀ c ∈ p.toList, isWhitespace c = false := by
    intro c hc
    rw [heq, String.toList_ofList, List.mem_filter] at hc
    simpa using hc.2
  have hp : String.ofList (p.toList.filter fun c => !isWhitespace c) =
      String.ofList (raw.toList.filter fun c => !isWhitespace c) := by
    have hfilter : p.toList.filter (fun c => !isWhitespace c) = p.toList :=
      List.filter_eq_self.mpr fun c hc => by simp [hnone c hc]
    rw [hfilter, String.ofList_toList, heq]
  have hagain : normalizePhone p = normalizePhone raw := by
    rw [normalizePhone, normalizePhone, hp]
  exact ⟨hnone, hagain.trans h⟩

/-! ## Schemas -/

/-- The types of attributes. -/
inductive AttributeType
  | string
  | number
  | boolean
  | email
  | url
  | phone
  | date
  | enum
  | json

/-- Who may edit an attribute. -/
inductive EditableBy
  | user
  | admin
  | none
  deriving DecidableEq

/-- Who is editing. -/
inductive Editor
  | user
  | admin
  | system
  deriving DecidableEq

/-- What a value must satisfy. -/
structure AttributeValidation where
  minLength : Option ℕ := none
  maxLength : Option ℕ := none
  pattern : Option String := none
  min : Option Float := none
  max : Option Float := none
  values : List String := []

/-- `AttributeDef`, as far as validation reads it. -/
structure AttributeDef where
  name : String
  kind : AttributeType := .string
  required : Bool := false
  multivalued : Bool := false
  editableBy : EditableBy := .user
  validation : AttributeValidation := {}

/-- The attributes of a tenant. -/
structure ProfileSchema where
  attributes : List AttributeDef
  allowUndeclared : Bool

/-- `ProfileSchema::get`. -/
def ProfileSchema.get (schema : ProfileSchema) (name : String) : Option AttributeDef :=
  schema.attributes.find? fun a => a.name == name

def maxValueBytes : ℕ := 64 * 1024

/-- The size of a value's text. -/
def textBytes (v : Value) : ℕ := (String.ofList v.text).utf8ByteSize

/-! ## Values -/

def compilePattern (P : Platform) (p : String) : Option (String → Bool) :=
  if 512 < p.utf8ByteSize then none else P.regex ("^(?:" ++ p ++ ")$")

/-- The `check_len` of `validate_scalar`. -/
def checkLen (P : Platform) (v : AttributeValidation) (s : String) : Except String Unit :=
  let n := s.toList.length % 2 ^ 32
  if v.minLength.any (n < ·) then
    .error ("must be at least " ++ toString (v.minLength.getD 0) ++ " characters")
  else if v.maxLength.any (· < n) then
    .error ("must be at most " ++ toString (v.maxLength.getD 0) ++ " characters")
  else if v.pattern.any fun p => !(compilePattern P p).any (· s) then
    .error "does not match the required pattern"
  else .ok ()

/-- The kinds that are kept as strings: from the string sent to the one stored. -/
def validateText (P : Platform) (d : AttributeDef) (s : String) : Except String String :=
  match d.kind with
  | .string =>
      if maxValueBytes < (trim s).utf8ByteSize then .error "value too large"
      else (checkLen P d.validation (trim s)).map fun _ => trim s
  | .email =>
      let e := P.toLowercase (trim s)
      if P.validateEmail e = false then .error "invalid email address"
      else (checkLen P d.validation e).map fun _ => e
  | .url =>
      match P.urlScheme (trim s) with
      | none => .error "invalid URL"
      | some scheme =>
          if scheme = "http" ∨ scheme = "https" then
            (checkLen P d.validation (trim s)).map fun _ => trim s
          else .error "URL must use http or https"
  | .phone =>
      match normalizePhone s with
      | .ok p => .ok p
      | .error _ => .error "phone must be in E.164 format"
  | .date =>
      match P.parseDate (trim s) with
      | some t => .ok t
      | none => .error "expected a date in YYYY-MM-DD form"
  | .enum =>
      if s ∈ d.validation.values then .ok s
      else .error ("must be one of: " ++ ", ".intercalate d.validation.values)
  | _ => .error "expected a string"

def validateScalar (P : Platform) (d : AttributeDef) (value : Value) : Except String Value :=
  match d.kind with
  | .number =>
      match value with
      | .number t =>
          let n := P.asF64 t
          if d.validation.min.any (n < ·) then
            .error ("must be at least " ++ P.f64Text (d.validation.min.getD 0))
          else if d.validation.max.any (· < n) then
            .error ("must be at most " ++ P.f64Text (d.validation.max.getD 0))
          else .ok value
      | _ => .error "expected a number"
  | .boolean =>
      match value with
      | .bool b => .ok (.bool b)
      | .string s =>
          if s = "true" ∨ s = "false" then .ok (.bool (s == "true")) else .error "expected a boolean"
      | _ => .error "expected a boolean"
  | .json =>
      match value with
      | .object _ | .array _ =>
          if maxValueBytes < textBytes value then .error "value too large" else .ok value
      | _ => .error "expected an object or array"
  | _ =>
      match value with
      | .string s => (validateText P d s).map .string
      | _ => .error "expected a string"

/-- The items of a multivalued attribute, from the `i`-th on. -/
def validateItems (P : Platform) (d : AttributeDef) : ℕ → List Value → Except String (List Value)
  | _, [] => .ok []
  | i, item :: items =>
      match validateScalar P d item with
      | .error e => .error ("[" ++ toString i ++ "]: " ++ e)
      | .ok v => (validateItems P d (i + 1) items).map (v :: ·)

def validateValue (P : Platform) (d : AttributeDef) (value : Value) : Except String Value :=
  if d.multivalued then
    match value with
    | .array items =>
        if 100 < items.length then .error "at most 100 values"
        else (validateItems P d 0 items).map .array
    | _ => .error "expected an array"
  else validateScalar P d value

def isNonEmpty : Value → Bool
  | .null => false
  | .string s => !(trim s).isEmpty
  | .array xs => !xs.isEmpty
  | _ => true

/-! ## Documents -/

def asObject : Value → Option Members
  | .object m => some m
  | _ => none

/-- Whether `editor` may set an attribute. -/
def mayEdit : EditableBy → Editor → Bool
  | _, .system => true
  | .user, _ => true
  | .admin, .admin => true
  | .admin, .user => false
  | .none, _ => false

/-- What `validate_attributes` makes of one incoming attribute: a refusal, nothing (an explicit
null), or the value to store. -/
def judge (P : Platform) (schema : ProfileSchema) (editor : Editor) (unchanged : Bool)
    (name : String) (value : Value) : Except String (Option Value) :=
  match schema.get name with
  | none =>
      if !schema.allowUndeclared then .error "unknown attribute"
      else if editor = .user ∧ unchanged = false then .error "not editable"
      else if maxValueBytes < textBytes value then .error "value too large"
      else .ok (some value)
  | some d =>
      if mayEdit d.editableBy editor = false ∧ unchanged = false then .error "not editable"
      else if value = .null then .ok none
      else (validateValue P d value).map some

/-- An attribute that was not sent and is not the editor's to remove. -/
def keeps (schema : ProfileSchema) (editor : Editor) (name : String) : Bool :=
  match schema.get name with
  | some d => !mayEdit d.editableBy editor
  | none => editor == .user

def validateAttributesWith (P : Platform) (schema : ProfileSchema) (incoming : Value)
    (editor : Editor) (existing : Option Value) (requireAll : Bool) : Except AppError Value :=
  match asObject incoming with
  | none => .error (.badRequest "attributes must be a JSON object")
  | some incoming =>
      let existing := existing.bind asObject
      let judged := incoming.map fun e =>
        (e.1, judge P schema editor (existing.any fun m => m.get e.1 = some e.2) e.1 e.2)
      let refused := judged.filterMap fun j =>
        match j.2 with
        | .error message => some ⟨"attributes." ++ j.1, message⟩
        | .ok _ => none
      let accepted := judged.foldl (fun (out : Members) j =>
        match j.2 with
        | .ok (some v) => out.insert j.1 v
        | _ => out) []
      let out := (existing.getD []).foldl (fun (out : Members) e =>
        if (out.get e.1).isNone ∧ (incoming.get e.1).isNone ∧ keeps schema editor e.1 = true then
          out.insert e.1 e.2
        else out) accepted
      let missing := schema.attributes.filterMap fun d =>
        if requireAll ∧ d.required ∧ ¬ (out.get d.name).any isNonEmpty then
          some ⟨"attributes." ++ d.name, "required"⟩
        else none
      if (refused ++ missing : List FieldError).isEmpty then .ok (.object out)
      else .error (.validation (refused ++ missing))

def validateAttributes (P : Platform) (schema : ProfileSchema) (incoming : Value) (editor : Editor)
    (existing : Option Value) : Except AppError Value :=
  validateAttributesWith P schema incoming editor existing true

/-! ## What the system writes -/

section System

variable {P : Platform} {schema : ProfileSchema}

/-- What the check makes of an attribute that the system writes. -/
def accepted (P : Platform) (schema : ProfileSchema) (name : String) (value : Value) : Option Value :=
  (judge P schema .system false name value).toOption.join

lemma mayEdit_system (e : EditableBy) : mayEdit e .system = true := by cases e <;> rfl

lemma judge_system (unchanged : Bool) (name : String) (value : Value) :
    judge P schema .system unchanged name value = judge P schema .system false name value := by
  rw [judge, judge]
  cases schema.get name with
  | none => simp
  | some d => simp [mayEdit_system]

lemma keeps_system (name : String) : keeps schema .system name = false := by
  rw [keeps]
  cases schema.get name with
  | none => rfl
  | some d => simp [mayEdit_system]

lemma get_foldl_insert {f : String → Value → Except String (Option Value)} {m : Members}
    (hm : m.Keyed) (acc : Members) (k : String) :
    Members.get ((m.map fun e => (e.1, f e.1 e.2)).foldl (fun (out : Members) j =>
        match j.2 with
        | .ok (some v) => out.insert j.1 v
        | _ => out) acc) k =
      ((m.get k).bind fun v => (f k v).toOption.join).or (acc.get k) := by
  induction m generalizing acc with
  | nil => rfl
  | cons e m ih =>
      obtain ⟨j, w⟩ := e
      obtain ⟨hj, hm⟩ := Members.keyed_cons.mp hm
      rw [List.map_cons, List.foldl_cons, ih hm, Members.get_cons]
      by_cases hjk : j = k
      · -- the attribute itself, which does not come again
        subst hjk
        rw [Members.get_eq_none hj, if_pos rfl, Option.bind_some, Option.bind_none, Option.none_or]
        rcases hf : f j w with message | (_ | v)
        · simp [Except.toOption]
        · simp [Except.toOption]
        · simp [Except.toOption, Members.get_insert]
      · rw [if_neg hjk]
        rcases hf : f j w with message | (_ | v)
        · rfl
        · rfl
        · simp only [Members.get_insert, if_neg hjk]

/-- **What validation stores for the system.**  Each attribute that is sent comes out as the check
makes it, whatever was stored, and nothing else does. -/
lemma validateAttributes_system {incoming : Members} (hkeyed : incoming.Keyed)
    {existing : Option Value} {v : Value}
    (h : validateAttributes P schema (.object incoming) .system existing = .ok v) :
    ∃ out, v = .object out ∧
      ∀ k, Members.get out k = (incoming.get k).bind (accepted P schema k) := by
  have hkept : ∀ (m out : Members), m.foldl (fun (out : Members) e =>
      if (out.get e.1).isNone ∧ (incoming.get e.1).isNone ∧ keeps schema .system e.1 = true then
        out.insert e.1 e.2
      else out) out = out := by
    intro m out
    induction m with
    | nil => rfl
    | cons e m ih => rw [List.foldl_cons, keeps_system, if_neg (by simp), ih]
  simp only [validateAttributes, validateAttributesWith, asObject, judge_system, hkept] at h
  split_ifs at h
  refine ⟨_, (Except.ok.inj h).symm, fun k => ?_⟩
  rw [get_foldl_insert hkeyed, Members.get_nil, Option.or_none]
  rfl

end System

end Ridm.Users
