import Smartdoge.Lib.GoMap
import Smartdoge.Lib.Writes

/-!
# Type names of typed data

`ethereum/eip712/eip712.go` makes the EIP-712 types of a Cosmos message by walking over its fields: each struct below
the message gets a type definition whose name is the path to it, cut at dots and underscores and title-cased.

* `sanitizeTypedef_dotted`: the name of a path is `Type` and the title-cased names of the fields on it.
* `walkField_frame`, `walkLoop_frame`: a walk writes the type definition of the struct it is in and those below.
* `walkField_lists`, `walkLoop_lists`: where no two structs share a name, each type definition lists the fields of
  its struct.
* **`unambiguous_iff`**: the type definitions are unambiguous, if and only if no two paths to structs give the same
  text when their names are title-cased and joined.
* `lost_definition`: `foo_bar` and `foo.bar` share one type definition.
-/

namespace Smartdoge.Eip712

open Smartdoge.Lib Smartdoge.Lib.Writes

/-! ## Messages -/

/-- The basic kinds that have an EIP-712 type. -/
inductive BasicKind where
  | string
  | bool
  | int
  | int8
  | int16
  | int32
  | int64
  | uint
  | uint8
  | uint16
  | uint32
  | uint64
deriving DecidableEq

/-- What ends the extraction. Panics are recovered as errors. -/
inductive ExtractError where
  | panicked
  /-- "failed to unpack Any in msg struct". -/
  | unpackAny
deriving DecidableEq

mutual

/-- A type of a message together with its value, as reflection shows them. Below a nil pointer there are types without
values. -/
inductive Node where
  | basic (kind : BasicKind)
  /-- A pointer, with what it points to; a nil pointer has a node without values below it. -/
  | pointer (elem : Node)
  /-- An interface that holds a value. -/
  | interface (dynamic : Node)
  /-- An interface of which reflection gives no value: it is nil, not exported, or below a nil pointer. -/
  | noInterface
  /-- A slice or array, with its first element (a node without values if it is empty); no length below a nil
  pointer. -/
  | collection (length : Option ℕ) (first : Node)
  /-- A struct; `convertible` is whether its type converts to `big.Int` or `sdk.Int`. -/
  | struct (convertible : Bool) (fields : Fields)
  /-- A type of another kind. -/
  | other

/-- The fields of a struct with their `json` tags. -/
inductive Fields where
  | nil
  | cons (jsonTags : List Char) (field : Node) (rest : Fields)
  /-- A field of type `*codectypes.Any`; `value` is the field `Value` of the wrapper around what it unpacks to. -/
  | any (jsonTags : List Char) (value : Node) (rest : Fields)
  /-- A field of type `*codectypes.Any` that is nil or not unpacked. -/
  | noAny (jsonTags : List Char) (err : ExtractError) (rest : Fields)

end

/-! ## Reflection -/

/-- Source: `ethereum/eip712/eip712.go` `typToEth` -/
def BasicKind.typToEth : BasicKind → List Char
  | .string => "string".toList
  | .bool => "bool".toList
  | .int => "int64".toList
  | .int8 => "int8".toList
  | .int16 => "int16".toList
  | .int32 => "int32".toList
  | .int64 => "int64".toList
  | .uint => "uint64".toList
  | .uint8 => "uint8".toList
  | .uint16 => "uint16".toList
  | .uint32 => "uint32".toList
  | .uint64 => "uint64".toList

/-- The empty text is no type.
Source: `ethereum/eip712/eip712.go` `typToEth` -/
def typToEth : Node → List Char
  | .basic kind => kind.typToEth
  | .collection _ elem => if typToEth elem ≠ [] then typToEth elem ++ "[]".toList else []
  | .pointer (.struct convertible _) => if convertible then "string".toList else []
  | .struct convertible _ => if convertible then "string".toList else []
  | _ => []

/-- Source: `ethereum/eip712/eip712.go` `jsonNameFromTag` -/
def jsonNameFromTag (jsonTags : List Char) : List Char := jsonTags.takeWhile (· ≠ ',')

mutual

/-- A field behind its pointers and interfaces. -/
inductive Resolved where
  | fails (err : ExtractError)
  /-- An empty collection, or a type that is not supported. -/
  | skipped
  | basic (ethTyp : List Char)
  /-- `unread` is whether the value at hand is an interface, of which reflection gives no fields. -/
  | struct (isCollection unread : Bool) (fields : ResolvedFields)

/-- The fields of a struct with their names. -/
inductive ResolvedFields where
  | nil
  | cons (fieldName : List Char) (field : Resolved) (rest : ResolvedFields)

end

/-- A type that is neither followed nor entered. -/
def resolveBasic (ethTyp : List Char) : Resolved := if ethTyp ≠ [] then .basic ethTyp else .skipped

mutual

/-- What stands behind the pointers and interfaces of a field, and behind those of the first element if it is a
collection. The loops take `reflect.TypeOf(field.Interface())` for the type and leave the value at the interface, until
a pointer is followed.
Source: `ethereum/eip712/eip712.go` `traverseFields`, the two loops over `fieldType` and `field` -/
def resolve (isCollection unread : Bool) : Node → Resolved
  | .pointer elem => resolve isCollection false elem
  | .interface dynamic => resolve isCollection true dynamic
  | .noInterface => .fails .panicked
  | .collection length first =>
    if isCollection then resolveBasic (typToEth (.collection length first))
    -- `field.Len()` of an interface or of no value
    else if unread then .fails .panicked
    else
      match length with
      | none => .fails .panicked
      | some 0 => .skipped
      | some (_ + 1) => resolve true false first
  | .struct convertible fields =>
    if convertible then .basic "string".toList else .struct isCollection unread (resolveFields fields)
  | .basic kind => .basic kind.typToEth
  | .other => .skipped

def resolveFields : Fields → ResolvedFields
  | .nil => .nil
  | .cons jsonTags field rest => .cons (jsonNameFromTag jsonTags) (resolve false false field) (resolveFields rest)
  | .any jsonTags value rest =>
    -- `cosmosAnyWrapper`
    .cons (jsonNameFromTag jsonTags)
      (.struct false false
        (.cons "type".toList (.basic "string".toList) (.cons "value".toList (resolve false false value) .nil)))
      (resolveFields rest)
  | .noAny jsonTags err rest => .cons (jsonNameFromTag jsonTags) (.fails err) (resolveFields rest)

end

/-- Source: `reflect.Type.NumField` -/
def ResolvedFields.numField : ResolvedFields → ℕ
  | .nil => 0
  | .cons _ _ rest => rest.numField + 1

/-! ## Names -/

/-- The tables of Unicode that `strings.Title` uses. -/
structure Unicode where
  toTitle : Char → Char
  isSeparator : Char → Bool

namespace Unicode

variable (u : Unicode)

/-- `strings.Title` of a text that stands after a character. -/
def titleFrom (prev : Char) : List Char → List Char
  | [] => []
  | r :: rs => (if u.isSeparator prev then u.toTitle r else r) :: titleFrom r rs

/-- Source: Go `strings.Title` -/
def title (s : List Char) : List Char := u.titleFrom ' ' s

end Unicode

section naming

variable (u : Unicode)

/-- Source: `ethereum/eip712/eip712.go` `sanitizeTypedef` -/
def sanitizeTypedef (str : List Char) : List Char :=
  (str.splitOn '.').flatMap fun part =>
    if part = ['_'] then "Type".toList else (part.splitOn '_').flatMap u.title

/-- Source: `ethereum/eip712/eip712.go` `typeDefPrefix` -/
def typeDefPrefix : List Char := ['_']

/-- The type definition that the fields of a struct go to. -/
def typeDef (rootType pre : List Char) : List Char :=
  if pre = typeDefPrefix then rootType else sanitizeTypedef u pre

end naming

/-! ## The walk -/

/-- Source: go-ethereum `apitypes.Type` -/
structure TypeEntry where
  name : List Char
  type : List Char
deriving DecidableEq

/-- Source: go-ethereum `apitypes.Types` -/
abbrev TypeMap := GoMap (List Char) (List TypeEntry)

/-- `typeMap[name]`, nil where it is not there. -/
def TypeMap.listed (types : TypeMap) (name : List Char) : List TypeEntry := (types.get name).getD []

/-- `typeMap[name] = append(typeMap[name], entry)` -/
def TypeMap.append (types : TypeMap) (name : List Char) (entry : TypeEntry) : TypeMap :=
  types.set name (types.listed name ++ [entry])

section walking

variable (u : Unicode) (rootType : List Char)

mutual

/-- One field of the struct at `pre`.
Source: `ethereum/eip712/eip712.go` `traverseFields`, the body of the loop -/
def walkField (pre fieldName : List Char) : Resolved → TypeMap → Except ExtractError TypeMap
  | .fails err, _ => .error err
  | .skipped, types => .ok types
  | .basic ethTyp, types => .ok (types.append (typeDef u rootType pre) ⟨fieldName, ethTyp⟩)
  | .struct isCollection unread fields, types =>
    let fieldPrefix := pre ++ '.' :: fieldName
    let fieldTypedef := sanitizeTypedef u fieldPrefix ++ if isCollection then "[]".toList else []
    let types := types.append (typeDef u rootType pre) ⟨fieldName, fieldTypedef⟩
    if (types.listed (typeDef u rootType fieldPrefix)).length = fields.numField then .ok types
    else walkLoop fieldPrefix unread fields types

/-- Source: `ethereum/eip712/eip712.go` `traverseFields`, the loop -/
def walkLoop (pre : List Char) (unread : Bool) : ResolvedFields → TypeMap → Except ExtractError TypeMap
  | .nil, types => .ok types
  | .cons fieldName field rest, types =>
    -- `v.Field(i)` of an interface
    if unread then .error .panicked
    else do
      let types ← walkField pre fieldName field types
      walkLoop pre unread rest types

end

/-- Source: `ethereum/eip712/eip712.go` `traverseFields` -/
def traverseFields (pre : List Char) (unread : Bool) (fields : ResolvedFields) (types : TypeMap) :
    Except ExtractError TypeMap :=
  if (types.listed (typeDef u rootType pre)).length = fields.numField then .ok types
  else walkLoop u rootType pre unread fields types

end walking

/-- The struct that a message is, behind its pointers; any other type panics. -/
def messageFields : Node → Option ResolvedFields
  | .pointer elem => messageFields elem
  | .struct _ fields => some (resolveFields fields)
  | _ => none

/-- Source: `ethereum/eip712/eip712.go` `walkFields` -/
def walkFields (u : Unicode) (types : TypeMap) (rootType : List Char) (msg : Node) : Except ExtractError TypeMap :=
  match messageFields msg with
  | none => .error .panicked
  | some fields => traverseFields u rootType typeDefPrefix false fields types

/-- The type definitions of every transaction. -/
def rootTypes (msgTypeName : List Char) : TypeMap :=
  ((((((GoMap.empty : TypeMap).set "EIP712Domain".toList
    [⟨"name".toList, "string".toList⟩, ⟨"version".toList, "string".toList⟩, ⟨"chainId".toList, "uint256".toList⟩,
      ⟨"verifyingContract".toList, "string".toList⟩, ⟨"salt".toList, "string".toList⟩]).set "Tx".toList
    [⟨"account_number".toList, "string".toList⟩, ⟨"chain_id".toList, "string".toList⟩, ⟨"fee".toList, "Fee".toList⟩,
      ⟨"memo".toList, "string".toList⟩, ⟨"msgs".toList, "Msg[]".toList⟩, ⟨"sequence".toList, "string".toList⟩]).set
    "Fee".toList [⟨"amount".toList, "Coin[]".toList⟩, ⟨"gas".toList, "string".toList⟩]).set
    "Coin".toList [⟨"denom".toList, "string".toList⟩, ⟨"amount".toList, "string".toList⟩]).set
    "Msg".toList [⟨"type".toList, "string".toList⟩, ⟨"value".toList, msgTypeName⟩]).set msgTypeName []

/-- Source: `ethereum/eip712/eip712.go` `extractMsgTypes` -/
def extractMsgTypes (u : Unicode) (msgTypeName : List Char) (msg : Node) : Except ExtractError TypeMap :=
  walkFields u (rootTypes msgTypeName) msgTypeName msg

/-! ## What the type definitions should be -/

/-- The prefix of the struct at a path. -/
def dotted (path : List (List Char)) : List Char := '_' :: path.flatMap fun name => '.' :: name

mutual

/-- The structs at and below a field, with their paths. -/
def structsAt (path : List (List Char)) : Resolved → List (List (List Char) × ResolvedFields)
  | .struct _ _ fields => (path, fields) :: structsBelow path fields
  | _ => []

/-- The structs below the struct at a path. -/
def structsBelow (path : List (List Char)) : ResolvedFields → List (List (List Char) × ResolvedFields)
  | .nil => []
  | .cons fieldName field rest => structsAt (path ++ [fieldName]) field ++ structsBelow path rest

end

section listing

variable (u : Unicode)

/-- The entry of a field that is supported and not empty. -/
def entry (path : List (List Char)) (fieldName : List Char) : Resolved → Option TypeEntry
  | .basic ethTyp => some ⟨fieldName, ethTyp⟩
  | .struct isCollection _ _ =>
    some ⟨fieldName, sanitizeTypedef u (dotted (path ++ [fieldName])) ++ if isCollection then "[]".toList else []⟩
  | _ => none

/-- The entries of the struct at a path. -/
def entries (path : List (List Char)) : ResolvedFields → List TypeEntry
  | .nil => []
  | .cons fieldName field rest => (entry u path fieldName field).toList ++ entries path rest

/-- **The type definitions are unambiguous**: no two structs share a name, and each type definition lists the fields
of the one struct that it is of. -/
structure Unambiguous (msgTypeName : List Char) (fields : ResolvedFields) (types : TypeMap) : Prop where
  distinct : ((structsBelow [] fields).map fun s => sanitizeTypedef u (dotted s.1)).Nodup
  root : types.listed msgTypeName = entries u [] fields
  nested : ∀ s ∈ structsBelow [] fields, types.listed (sanitizeTypedef u (dotted s.1)) = entries u s.1 s.2
  /-- Nothing else is defined. -/
  only : ∀ name, types.listed name ≠ (rootTypes msgTypeName).listed name → name = msgTypeName ∨
    ∃ s ∈ structsBelow [] fields, name = sanitizeTypedef u (dotted s.1)

/-- The names of the fields on a path, each cut at dots and underscores and title-cased, and joined. -/
def titles (path : List (List Char)) : List Char := path.flatMap (sanitizeTypedef u)

/-- No two paths to structs become the same text. -/
def DistinctTitles (fields : ResolvedFields) : Prop :=
  (structsBelow [] fields).Pairwise fun s s' => titles u s.1 ≠ titles u s'.1

end listing

/-! ## Names of paths -/

section names

variable {u : Unicode}

/-- The name of a path is put together from the names of its parts. -/
theorem sanitizeTypedef_append (a b : List Char) :
    sanitizeTypedef u (a ++ '.' :: b) = sanitizeTypedef u a ++ sanitizeTypedef u b := by
  unfold sanitizeTypedef List.splitOn
  rw [List.splitOnP_append_cons a b (by decide), List.flatMap_append]

/-- One more part of a path comes after a dot. -/
theorem dotted_concat (path : List (List Char)) (name : List Char) :
    dotted (path ++ [name]) = dotted path ++ '.' :: name := by
  simp [dotted]

/-- **The name of a path.** -/
theorem sanitizeTypedef_dotted (path : List (List Char)) :
    sanitizeTypedef u (dotted path) = "Type".toList ++ titles u path := by
  induction path using List.reverseRecOn with
  | nil => rfl
  | append_singleton path name ih =>
      rw [dotted_concat, sanitizeTypedef_append, ih, List.append_assoc]
      simp [titles]

/-- Only the empty path is written as the prefix alone. -/
theorem dotted_ne (path : List (List Char)) (name : List Char) : dotted (path ++ [name]) ≠ typeDefPrefix := by
  rw [dotted_concat, dotted, typeDefPrefix]
  simp

variable (u) in
/-- The type definition of the struct at a path. -/
def nameOf (rootType : List Char) (path : List (List Char)) : List Char := typeDef u rootType (dotted path)

/-- The root has the name of the message type. -/
theorem nameOf_nil (rootType : List Char) : nameOf u rootType [] = rootType := by
  unfold nameOf typeDef
  rw [if_pos (by rfl)]

/-- Every other struct is named after its path. -/
theorem nameOf_concat (rootType : List Char) (path : List (List Char)) (name : List Char) :
    nameOf u rootType (path ++ [name]) = sanitizeTypedef u (dotted (path ++ [name])) := if_neg (dotted_ne path name)

end names

/-! ## Type maps -/

/-- An entry for one name leaves the others alone. -/
theorem TypeMap.get_append_of_ne (types : TypeMap) {name other : List Char} (h : other ≠ name) (entry : TypeEntry) :
    (types.append name entry).get other = types.get other := GoMap.get_set_of_ne _ h _

/-- An entry comes after those that are listed under its name. -/
theorem TypeMap.listed_append_self (types : TypeMap) (name : List Char) (entry : TypeEntry) :
    (types.append name entry).listed name = types.listed name ++ [entry] := by
  simp [TypeMap.append, TypeMap.listed]

/-- What is listed depends on the entry of the map only. -/
theorem TypeMap.listed_congr {types types' : TypeMap} {name : List Char} (h : types'.get name = types.get name) :
    types'.listed name = types.listed name := by
  unfold TypeMap.listed
  rw [h]

/-! ## What a walk writes -/

section writes

variable {u : Unicode} {rootType : List Char}

variable (u rootType) in
/-- The names of some structs. -/
def namesOf (structs : List (List (List Char) × ResolvedFields)) : List (List Char) :=
  structs.map fun s => nameOf u rootType s.1

/-- The names of two lists of structs. -/
theorem namesOf_append (a b : List (List (List Char) × ResolvedFields)) :
    namesOf u rootType (a ++ b) = namesOf u rootType a ++ namesOf u rootType b := List.map_append

/-- A field that is a struct is listed under its parent, and then walked. -/
theorem walkField_struct {path : List (List Char)} {fieldName : List Char} {isCollection unread : Bool}
    {fields : ResolvedFields} {types types' : TypeMap}
    (h : walkField u rootType (dotted path) fieldName (.struct isCollection unread fields) types = .ok types') :
    ∃ types₁, types₁ = types.append (nameOf u rootType path)
        ⟨fieldName, sanitizeTypedef u (dotted (path ++ [fieldName])) ++ if isCollection then "[]".toList else []⟩ ∧
      (((types₁.listed (nameOf u rootType (path ++ [fieldName]))).length = fields.numField ∧ types' = types₁) ∨
        (types₁.listed (nameOf u rootType (path ++ [fieldName]))).length ≠ fields.numField ∧
          walkLoop u rootType (dotted (path ++ [fieldName])) unread fields types₁ = .ok types') := by
  rw [walkField, ← dotted_concat] at h
  refine ⟨_, rfl, ?_⟩
  generalize (if isCollection = true then "[]".toList else []) = brackets at h ⊢
  split_ifs at h with hskip
  · exact Or.inl ⟨hskip, (Except.ok.inj h).symm⟩
  · exact Or.inr ⟨hskip, h⟩

/-- The loop walks the first field and goes on with the others. -/
theorem walkLoop_cons {pre fieldName : List Char} {unread : Bool} {field : Resolved} {rest : ResolvedFields}
    {types types' : TypeMap} (h : walkLoop u rootType pre unread (.cons fieldName field rest) types = .ok types') :
    ∃ types₁, walkField u rootType pre fieldName field types = .ok types₁ ∧
      walkLoop u rootType pre unread rest types₁ = .ok types' := by
  rw [walkLoop] at h
  split_ifs at h
  exact except_bind_ok.mp h

mutual

/-- **A walk writes the type definition of the struct it is in and those below it.** -/
theorem walkField_frame {path : List (List Char)} {fieldName : List Char} {types types' : TypeMap}
    {other : List Char} : ∀ {field : Resolved},
      walkField u rootType (dotted path) fieldName field types = .ok types' → other ≠ nameOf u rootType path →
      other ∉ namesOf u rootType (structsAt (path ++ [fieldName]) field) → types'.get other = types.get other
  | .fails err, h, _, _ => by
      rw [walkField] at h
      cases h
  | .skipped, h, _, _ => by
      rw [walkField] at h
      cases h
      rfl
  | .basic ethTyp, h, hne, _ => by
      rw [walkField] at h
      cases h
      exact TypeMap.get_append_of_ne types hne _
  | .struct isCollection unread fields, h, hne, hnot => by
      rw [structsAt, namesOf, List.map_cons, List.mem_cons, not_or] at hnot
      obtain ⟨types₁, rfl, ⟨-, rfl⟩ | ⟨-, hloop⟩⟩ := walkField_struct h
      · exact TypeMap.get_append_of_ne types hne _
      · rw [walkLoop_frame hloop hnot.1 hnot.2]
        exact TypeMap.get_append_of_ne types hne _

/-- The loop over the fields of a struct lists nothing under other names than those of the struct and of the structs
below it. -/
theorem walkLoop_frame {path : List (List Char)} {unread : Bool} {types types' : TypeMap} {other : List Char} :
    ∀ {fields : ResolvedFields},
      walkLoop u rootType (dotted path) unread fields types = .ok types' → other ≠ nameOf u rootType path →
      other ∉ namesOf u rootType (structsBelow path fields) → types'.get other = types.get other
  | .nil, h, _, _ => by
      rw [walkLoop] at h
      cases h
      rfl
  | .cons fieldName field rest, h, hne, hnot => by
      rw [structsBelow, namesOf_append, List.mem_append, not_or] at hnot
      obtain ⟨types₁, hfield, hrest⟩ := walkLoop_cons h
      rw [walkLoop_frame hrest hne hnot.2, walkField_frame hfield hne hnot.1]

end

/-- A struct without fields has the empty list of them. -/
theorem ResolvedFields.eq_nil_of_numField {fields : ResolvedFields} (h : fields.numField = 0) : fields = .nil := by
  cases fields with
  | nil => rfl
  | cons fieldName field rest => exact absurd h (by simp [ResolvedFields.numField])

mutual

/-- **A field adds its entry** to the type definition of its struct, and the structs below it get theirs, if no two
names coincide and nothing was listed under them. -/
theorem walkField_lists {path : List (List Char)} {fieldName : List Char} {types types' : TypeMap} :
    ∀ {field : Resolved}, walkField u rootType (dotted path) fieldName field types = .ok types' →
      (nameOf u rootType path :: namesOf u rootType (structsAt (path ++ [fieldName]) field)).Nodup →
      (∀ name ∈ namesOf u rootType (structsAt (path ++ [fieldName]) field), types.listed name = []) →
      types'.listed (nameOf u rootType path) =
          types.listed (nameOf u rootType path) ++ (entry u path fieldName field).toList ∧
        ∀ s ∈ structsAt (path ++ [fieldName]) field, types'.listed (nameOf u rootType s.1) = entries u s.1 s.2
  | .fails err, h, _, _ => by
      rw [walkField] at h
      cases h
  | .skipped, h, _, _ => by
      rw [walkField] at h
      cases h
      simp [entry, structsAt]
  | .basic ethTyp, h, _, _ => by
      rw [walkField] at h
      cases h
      exact ⟨TypeMap.listed_append_self types _ _, by simp [structsAt]⟩
  | .struct isCollection unread fields, h, hnodup, hfresh => by
      rw [structsAt, namesOf, List.map_cons] at hnodup hfresh
      obtain ⟨hnot, hbelow⟩ := List.nodup_cons.mp hnodup
      rw [List.mem_cons, not_or] at hnot
      obtain ⟨hfirst, hothers⟩ := List.forall_mem_cons.mp hfresh
      obtain ⟨types₁, rfl, hwalk⟩ := walkField_struct h
      -- The type definition of the field is still empty after its own entry went to the struct around it.
      have hkept : ∀ name, name ≠ nameOf u rootType path → ∀ e : TypeEntry,
          (types.append (nameOf u rootType path) e).listed name = types.listed name := fun name hne e =>
        TypeMap.listed_congr (TypeMap.get_append_of_ne types hne e)
      rw [hkept _ (Ne.symm hnot.1), hfirst, List.length_nil] at hwalk
      rw [structsAt, List.forall_mem_cons]
      rcases hwalk with ⟨hnone, rfl⟩ | ⟨-, hloop⟩
      · obtain rfl := ResolvedFields.eq_nil_of_numField hnone.symm
        refine ⟨TypeMap.listed_append_self types _ _, ?_, by simp [structsBelow]⟩
        rw [hkept _ (Ne.symm hnot.1), hfirst]
        rfl
      · obtain ⟨hown, hnested⟩ := walkLoop_lists hloop hbelow fun name hname => by
          rw [hkept name fun heq => hnot.2 (heq ▸ hname)]
          exact hothers name hname
        refine ⟨?_, ?_, hnested⟩
        · rw [TypeMap.listed_congr (walkLoop_frame hloop hnot.1 hnot.2)]
          exact TypeMap.listed_append_self types _ _
        · rw [hown, hkept _ (Ne.symm hnot.1), hfirst]
          rfl

/-- The loop lists the entries of all fields of a struct, and the structs below it get theirs. -/
theorem walkLoop_lists {path : List (List Char)} {unread : Bool} {types types' : TypeMap} :
    ∀ {fields : ResolvedFields}, walkLoop u rootType (dotted path) unread fields types = .ok types' →
      (nameOf u rootType path :: namesOf u rootType (structsBelow path fields)).Nodup →
      (∀ name ∈ namesOf u rootType (structsBelow path fields), types.listed name = []) →
      types'.listed (nameOf u rootType path) = types.listed (nameOf u rootType path) ++ entries u path fields ∧
        ∀ s ∈ structsBelow path fields, types'.listed (nameOf u rootType s.1) = entries u s.1 s.2
  | .nil, h, _, _ => by
      rw [walkLoop] at h
      cases h
      simp [entries, structsBelow]
  | .cons fieldName field rest, h, hnodup, hfresh => by
      rw [structsBelow, namesOf_append] at hnodup hfresh
      obtain ⟨hnot, happend⟩ := List.nodup_cons.mp hnodup
      obtain ⟨hat, hbelow, hdisjoint⟩ := List.nodup_append.mp happend
      rw [List.mem_append, not_or] at hnot
      obtain ⟨types₁, hfield, hrest⟩ := walkLoop_cons h
      obtain ⟨hown₁, hnested₁⟩ := walkField_lists hfield (List.nodup_cons.mpr ⟨hnot.1, hat⟩)
        fun name hname => hfresh name (List.mem_append_left _ hname)
      -- What stands below the other fields is still empty, and what stands below this one stays.
      obtain ⟨hown, hnested⟩ := walkLoop_lists hrest (List.nodup_cons.mpr ⟨hnot.2, hbelow⟩) fun name hname => by
        rw [TypeMap.listed_congr (walkField_frame hfield (fun heq => hnot.2 (heq ▸ hname))
          fun hmem => hdisjoint name hmem name hname rfl)]
        exact hfresh name (List.mem_append_right _ hname)
      refine ⟨?_, ?_⟩
      · rw [hown, hown₁, List.append_assoc]
        rfl
      · rw [structsBelow]
        intro s hs
        rcases List.mem_append.mp hs with hhere | hafter
        · have hname : nameOf u rootType s.1 ∈ namesOf u rootType (structsAt (path ++ [fieldName]) field) :=
            List.mem_map_of_mem hhere
          rw [TypeMap.listed_congr (walkLoop_frame hrest (fun heq => hnot.1 (heq ▸ hname))
            fun hmem => hdisjoint _ hname _ hmem rfl)]
          exact hnested₁ s hhere
        · exact hnested s hafter

end

end writes

/-! ## When type definitions are unambiguous -/

section unambiguous

variable {u : Unicode} {msgTypeName : List Char} {fields : ResolvedFields}

mutual

/-- The structs at a path are below the root. -/
theorem structsAt_path {path : List (List Char)} {s : List (List Char) × ResolvedFields} (hpath : path ≠ []) :
    ∀ {field : Resolved}, s ∈ structsAt path field → s.1 ≠ []
  | .fails _, h => by simp [structsAt] at h
  | .skipped, h => by simp [structsAt] at h
  | .basic _, h => by simp [structsAt] at h
  | .struct _ _ fields, h => by
      rw [structsAt, List.mem_cons] at h
      rcases h with rfl | h
      · exact hpath
      · exact structsBelow_path h

/-- So are those below a path. -/
theorem structsBelow_path {path : List (List Char)} {s : List (List Char) × ResolvedFields} :
    ∀ {fields : ResolvedFields}, s ∈ structsBelow path fields → s.1 ≠ []
  | .nil, h => by simp [structsBelow] at h
  | .cons fieldName field rest, h => by
      rw [structsBelow, List.mem_append] at h
      rcases h with h | h
      · exact structsAt_path (by simp) h
      · exact structsBelow_path h

end

/-- A struct below the root is named after its path. -/
theorem nameOf_of_mem {s : List (List Char) × ResolvedFields} (h : s ∈ structsBelow [] fields) :
    nameOf u msgTypeName s.1 = sanitizeTypedef u (dotted s.1) := by
  rw [← List.dropLast_append_getLast (structsBelow_path h)]
  exact nameOf_concat msgTypeName _ _

/-- The names of the structs below the root. -/
theorem namesOf_structsBelow : namesOf u msgTypeName (structsBelow [] fields) =
    (structsBelow [] fields).map fun s => sanitizeTypedef u (dotted s.1) :=
  List.map_congr_left fun _ hs => nameOf_of_mem hs

/-- The type definitions of every transaction have other names than those of structs. -/
theorem rootTypes_listed {name : List Char} (h : "Type".toList <+: name) : (rootTypes msgTypeName).listed name = [] := by
  have hother : ∀ fixed : List Char, ¬"Type".toList <+: fixed → name ≠ fixed := by
    rintro fixed hfixed rfl
    exact hfixed h
  unfold rootTypes TypeMap.listed
  rw [GoMap.get_set]
  split_ifs with hname
  · rfl
  · rw [GoMap.get_set_of_ne _ (hother _ (by decide)), GoMap.get_set_of_ne _ (hother _ (by decide)),
      GoMap.get_set_of_ne _ (hother _ (by decide)), GoMap.get_set_of_ne _ (hother _ (by decide)),
      GoMap.get_set_of_ne _ (hother _ (by decide)), GoMap.get_empty]
    rfl

/-- Nothing is listed under the message type at first. -/
theorem rootTypes_listed_self : (rootTypes msgTypeName).listed msgTypeName = [] := by
  simp [rootTypes, TypeMap.listed]

/-- The extraction is one walk over the fields of the message. -/
theorem extractMsgTypes_ok {msg : Node} {types : TypeMap} (hfields : messageFields msg = some fields)
    (hok : extractMsgTypes u msgTypeName msg = .ok types) :
    walkLoop u msgTypeName (dotted []) false fields (rootTypes msgTypeName) = .ok types := by
  unfold extractMsgTypes walkFields at hok
  simp only [hfields] at hok
  unfold traverseFields at hok
  split_ifs at hok with hskip
  · -- A message without fields is skipped.
    have hroot : typeDef u msgTypeName typeDefPrefix = msgTypeName := if_pos rfl
    rw [hroot, rootTypes_listed_self, List.length_nil] at hskip
    obtain rfl := ResolvedFields.eq_nil_of_numField hskip.symm
    rw [walkLoop]
    exact hok
  · exact hok

/-- The names are distinct if and only if the titles of the paths are. -/
theorem distinct_iff : ((structsBelow [] fields).map fun s => sanitizeTypedef u (dotted s.1)).Nodup ↔
    DistinctTitles u fields := by
  unfold DistinctTitles List.Nodup
  rw [List.pairwise_map]
  refine List.Pairwise.iff fun s s' => ?_
  rw [sanitizeTypedef_dotted, sanitizeTypedef_dotted, Ne, List.append_cancel_left_eq]

/-- **The type definitions of a message are unambiguous**, if and only if no two paths to structs become the same text
when their names are title-cased and joined. -/
theorem unambiguous_iff (hname : ¬"Type".toList <+: msgTypeName) {msg : Node} {types : TypeMap}
    (hfields : messageFields msg = some fields) (hok : extractMsgTypes u msgTypeName msg = .ok types) :
    Unambiguous u msgTypeName fields types ↔ DistinctTitles u fields := by
  have hwalk := extractMsgTypes_ok hfields hok
  constructor
  · intro h
    exact distinct_iff.mp h.distinct
  · intro h
    have hdistinct := distinct_iff.mpr h
    have hnames : namesOf u msgTypeName (structsBelow [] fields) = _ := namesOf_structsBelow
    -- A struct's name begins with `Type`, so that it is neither the message's nor one of the others.
    have htype : ∀ name ∈ namesOf u msgTypeName (structsBelow [] fields), "Type".toList <+: name := by
      rw [hnames]
      intro name hmem
      obtain ⟨s, -, rfl⟩ := List.mem_map.mp hmem
      rw [sanitizeTypedef_dotted]
      exact List.prefix_append _ _
    have hnodup : (nameOf u msgTypeName [] :: namesOf u msgTypeName (structsBelow [] fields)).Nodup := by
      rw [nameOf_nil, List.nodup_cons, hnames]
      exact ⟨fun hmem => hname (htype _ (hnames ▸ hmem)), hdistinct⟩
    obtain ⟨hown, hnested⟩ := walkLoop_lists hwalk hnodup fun name hmem => rootTypes_listed (htype name hmem)
    rw [nameOf_nil, rootTypes_listed_self, List.nil_append] at hown
    refine ⟨hdistinct, hown, ?_, ?_⟩
    · intro s hs
      rw [← nameOf_of_mem hs]
      exact hnested s hs
    · intro name hchanged
      by_contra hnone
      push Not at hnone
      refine hchanged (TypeMap.listed_congr (walkLoop_frame hwalk ?_ ?_))
      · rw [nameOf_nil]
        exact hnone.1
      · rw [hnames]
        intro hmem
        obtain ⟨s, hs, heq⟩ := List.mem_map.mp hmem
        exact hnone.2 s hs heq.symm

end unambiguous

/-- Titles of ASCII letters. -/
def ascii : Unicode := ⟨Char.toUpper, fun c => c = ' '⟩

/-- A struct with one text in it. -/
def oneText (jsonTags : String) : Node := .struct false (.cons jsonTags.toList (.basic .string) .nil)

/-- A message with a struct `foo_bar` and a struct `foo` with a struct in it. -/
def twoStructs (inner : String) : Node :=
  .struct false (.cons "foo_bar".toList (oneText "a,omitempty")
    (.cons "foo".toList (.struct false (.cons inner.toList (oneText "b") .nil)) .nil))

/-- **`foo_bar` and `foo.bar` share one type definition**, and the fields of the second are lost. -/
theorem lost_definition : ∃ fields types, messageFields (twoStructs "bar") = some fields ∧
    extractMsgTypes ascii "MsgValue".toList (twoStructs "bar") = .ok types ∧
    ((structsBelow [] fields).map fun s => (s.1, entries ascii s.1 s.2)) =
      [([['f', 'o', 'o', '_', 'b', 'a', 'r']], [⟨['a'], "string".toList⟩]),
        ([['f', 'o', 'o']], [⟨"bar".toList, "TypeFooBar".toList⟩]),
        ([['f', 'o', 'o'], ['b', 'a', 'r']], [⟨['b'], "string".toList⟩])] ∧
    types.listed "TypeFooBar".toList = [⟨['a'], "string".toList⟩] ∧
    ¬Unambiguous ascii "MsgValue".toList fields types := by
  have hlisted : (extractMsgTypes ascii "MsgValue".toList (twoStructs "bar")).toOption.map
      (fun types => types.listed "TypeFooBar".toList) = some [⟨['a'], "string".toList⟩] := by decide +kernel
  cases hok : extractMsgTypes ascii "MsgValue".toList (twoStructs "bar") with
  | error err =>
      rw [hok] at hlisted
      cases hlisted
  | ok types =>
      rw [hok] at hlisted
      refine ⟨_, types, rfl, rfl, by decide +kernel, Option.some.inj hlisted, fun h => ?_⟩
      exact absurd h.distinct (by decide +kernel)

/-- Two structs with different names have their own type definitions. -/
theorem unambiguous_baz : ∃ fields types, messageFields (twoStructs "baz") = some fields ∧
    extractMsgTypes ascii "MsgValue".toList (twoStructs "baz") = .ok types ∧
    Unambiguous ascii "MsgValue".toList fields types := by
  have hsome : (extractMsgTypes ascii "MsgValue".toList (twoStructs "baz")).toOption.isSome = true := by
    decide +kernel
  cases hok : extractMsgTypes ascii "MsgValue".toList (twoStructs "baz") with
  | error err =>
      rw [hok] at hsome
      cases hsome
  | ok types =>
      refine ⟨_, types, rfl, rfl, (unambiguous_iff (by decide) rfl hok).mpr ?_⟩
      unfold DistinctTitles
      decide +kernel

end Smartdoge.Eip712
