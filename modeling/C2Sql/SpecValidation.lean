import C2Sql.Registration
import C2Sql.SpecTool

/-!
# Validated specifications

What `validate` has checked about a specification that it lets through, and what the registry asks
of the schema that is derived from it.

* `identifierValid_encode_iff`: a name that the tool accepts is an identifier of the library unless
  it ends in a newline or is a reserved word that the tool does not know;
* `validated_registers_iff`: the derived schema can be registered exactly if none of its names is
  of these kinds.
-/

namespace C2Sql

/-! ## Names -/

/-- A name that the library takes as well: it does not end in a newline, and is not reserved. -/
def PyStr.Registrable (s : PyStr) : Prop := 10 ∉ s ∧ (encode s).map toupper ∉ reservedWords

instance (s : PyStr) : Decidable (PyStr.Registrable s) :=
  inferInstanceAs (Decidable (10 ∉ s ∧ (encode s).map toupper ∉ reservedWords))

theorem utf8_of_lt {c : ℕ} (h : c < 128) : utf8 c = [UInt8.ofNat c] := by
  rw [utf8, if_pos (by omega)]
  rfl

theorem encode_of_lt {s : PyStr} (h : ∀ c ∈ s, c < 128) : encode s = s.map UInt8.ofNat := by
  induction s with
  | nil => rfl
  | cons c s ih =>
    rw [encode, List.flatMap_cons, utf8_of_lt (h c (by simp)), List.map_cons,
      ← ih fun b hb => h b (by simp [hb])]
    rfl

theorem isalpha_ofNat {c : ℕ} (h : c < 128) :
    (isalpha (UInt8.ofNat c) = true ∨ UInt8.ofNat c = 95) ↔ headPoint c = true := by
  revert c
  decide

theorem identByte_ofNat {c : ℕ} (h : c < 128) :
    identByte (UInt8.ofNat c) = true ↔ wordPoint c = true := by
  revert c
  decide

theorem wordPoint_lt {c : ℕ} (h : wordPoint c = true) : c < 128 ∧ c ≠ 10 := by
  simp only [wordPoint, headPoint, Bool.or_eq_true, Bool.and_eq_true, decide_eq_true_eq,
    beq_iff_eq] at h
  omega

/-- What the pattern of the tool lets through. -/
theorem identTail_imp {s : PyStr} (h : identTail s = true) :
    (∀ c ∈ s, c < 128) ∧ (10 ∉ s ↔ ∀ c ∈ s, wordPoint c = true) := by
  induction s with
  | nil => simp
  | cons c s ih =>
    simp only [identTail, Bool.or_eq_true, Bool.and_eq_true, beq_iff_eq, List.isEmpty_iff] at h
    obtain ⟨rfl, rfl⟩ | ⟨hc, hs⟩ := h
    · simp [wordPoint, headPoint]
    · obtain ⟨hlt, hnl⟩ := ih hs
      have hc' := wordPoint_lt hc
      rw [List.forall_mem_cons, List.forall_mem_cons, List.mem_cons, not_or, hnl]
      exact ⟨⟨hc'.1, hlt⟩, fun h => ⟨hc, h.2⟩, fun h => ⟨fun h10 => hc'.2 h10.symm, h.2⟩⟩

theorem lt_of_identRe {s : PyStr} (h : identRe s = true) : ∀ c ∈ s, c < 128 := by
  cases s with
  | nil => cases h
  | cons c cs =>
    rw [identRe, Bool.and_eq_true] at h
    exact List.forall_mem_cons.2
      ⟨(wordPoint_lt (by simp [wordPoint, h.1])).1, (identTail_imp h.2).1⟩

/-- The bytes of an ASCII string give it back. -/
theorem map_toNat_encode {s : PyStr} (h : ∀ c ∈ s, c < 128) :
    (encode s).map UInt8.toNat = s := by
  rw [encode_of_lt h, List.map_map]
  refine (List.map_congr_left fun c hc => ?_).trans (List.map_id s)
  exact UInt8.toNat_ofNat_of_lt' (by have := h c hc; simp [UInt8.size]; omega)

/-- **The identifiers of the library among those of the tool.** -/
theorem identifierValid_encode_iff {s : PyStr} (h : identRe s = true)
    (hlen : s.length ≤ toolMaxIdentLen) :
    identifierValid (encode s) = true ↔ PyStr.Registrable s := by
  cases s with
  | nil => cases h
  | cons c cs =>
    rw [identRe, Bool.and_eq_true] at h
    have hc : c < 128 ∧ c ≠ 10 := wordPoint_lt (by simp [wordPoint, h.1])
    obtain ⟨hlt, hnl⟩ := identTail_imp h.2
    have hall : ∀ b ∈ c :: cs, b < 128 := List.forall_mem_cons.2 ⟨hc.1, hlt⟩
    have hword : (∀ b ∈ cs.map UInt8.ofNat, identByte b = true) ↔ 10 ∉ cs := by
      rw [List.forall_mem_map, hnl]
      exact forall₂_congr fun b hb => identByte_ofNat (hlt b hb)
    have hcs : (cs.map UInt8.ofNat).length < maxIdentLen := by
      rw [List.length_map]
      exact hlen
    have h10 : 10 ∉ c :: cs ↔ 10 ∉ cs := by
      rw [List.mem_cons, not_or]
      exact ⟨fun h => h.2, fun h => ⟨fun h' => hc.2 h'.symm, h⟩⟩
    rw [PyStr.Registrable, encode_of_lt hall, List.map_cons, identifierValid_cons_iff, hword, h10,
      isalpha_ofNat hc.1]
    exact ⟨fun hv => ⟨hv.2.1, hv.2.2.2⟩, fun hr => ⟨h.1, hr.1, hcs, hr.2⟩⟩

/-- The strings among the values. -/
def Json.strings : Json → List PyStr
  | .str s => [s]
  | _ => []

/-- The name of a field. -/
def fieldName : Json → List PyStr
  | .obj f => (getKey f "name").strings
  | _ => []

/-- The names in a specification that become names of the database. -/
def specNames : Json → List PyStr
  | .obj spec => (getKey spec "struct_name").strings ++
    match getKey spec "fields" with
    | .arr fields => fields.flatMap fieldName
    | _ => []
  | _ => []

/-! ## What validation checks -/

theorem check_eq_nil {bad : Bool} {issue : Issue} : check bad issue = [] ↔ bad = false := by
  cases bad <;> simp [check]

theorem member_of_getKey {f : List (PyStr × Json)} {key : String} {v : Json}
    (h : getKey f key = v) (hv : v ≠ .null) : member f key = some v := by
  rw [getKey] at h
  cases hm : member f key with
  | none =>
    rw [hm] at h
    exact absurd h.symm hv
  | some w =>
    rw [hm, Option.getD_some] at h
    rw [h]

/-- An identifier of the tool. -/
structure Ident (value : Json) (s : PyStr) : Prop where
  value_eq : value = .str s
  re : identRe s = true
  length_le : s.length ≤ toolMaxIdentLen

theorem ident_of_checkIdent {value : Json} {label : PyStr} (h : checkIdent value label = []) :
    ∃ s, Ident value s := by
  cases value with
  | str s =>
    rw [checkIdent] at h
    split_ifs at h with hre
    rw [List.append_eq_nil_iff, check_eq_nil, decide_eq_false_iff_not, not_lt] at h
    exact ⟨s, rfl, hre, h.1⟩
  | _ => cases h

/-- A field that passes the checks. -/
structure FieldOk (field : Json) (name : PyStr) : Prop where
  members : ∃ f t type, field = .obj f ∧ Ident (getKey f "name") name ∧
    getKey f "type" = .str t ∧ sqlType t = some type

theorem sqlType_isSome {t : PyStr} (h : validTypes.contains t = true) :
    ∃ type, sqlType t = some type := by
  simp only [validTypes, List.map_cons, List.map_nil, List.contains_iff_mem, List.mem_cons,
    List.not_mem_nil, or_false] at h
  obtain rfl | rfl | rfl | rfl | rfl := h <;> exact ⟨_, rfl⟩

theorem checkType_eq_nil {loc : PyStr} {f : List (PyStr × Json)} (h : checkType loc f = []) :
    ∃ t type, getKey f "type" = .str t ∧ sqlType t = some type := by
  rw [checkType] at h
  cases ht : getKey f "type" with
  | str t =>
    simp only [ht] at h
    split_ifs at h with hvalid
    all_goals
      obtain ⟨type, htype⟩ := sqlType_isSome (by simpa using hvalid)
      exact ⟨t, type, rfl, htype⟩
  | _ => simp [ht] at h

/-- A field that passes the checks of a primary key, and whether it is one. -/
def KeyOk (enforce : Bool) (field : Json) (isKey : Bool) : Prop :=
  ∃ f, field = .obj f ∧ isKey = (getKey f "primary_key").truthy ∧
    ((getKey f "primary_key").truthy = true → (getKey f "nullable").truthy = false ∧
      (enforce = true → getKey f "type" ≠ .str (py "blob")))

theorem checkKey_eq_nil {enforce : Bool} {loc : PyStr} {f : List (PyStr × Json)}
    (h : checkKey enforce loc f = []) (hkey : (getKey f "primary_key").truthy = true) :
    (getKey f "nullable").truthy = false ∧
      (enforce = true → getKey f "type" ≠ .str (py "blob")) := by
  rw [checkKey, if_pos hkey, List.append_eq_nil_iff, check_eq_nil, check_eq_nil] at h
  refine ⟨h.1, fun henforce htype => ?_⟩
  simp [henforce, htype, Json.isOneOf] at h

/-- What one round of the loop finds in a field that passes the checks. -/
theorem checkField_ok {enforce : Bool} {i : ℕ} {seen seen' : List PyStr} {field : Json}
    {isKey : Bool} (h : checkField enforce i seen field = .ok ([], seen', isKey)) :
    (∃ name, FieldOk field name ∧ name ∉ seen ∧ seen' = name :: seen) ∧
      KeyOk enforce field isKey := by
  cases field with
  | obj f =>
    simp only [checkField] at h
    split_ifs at h
    simp only [Except.ok.injEq, Prod.mk.injEq, List.append_eq_nil_iff] at h
    obtain ⟨⟨⟨⟨⟨-, hident⟩, hdup⟩, htype⟩, hkey⟩, hseen, rfl⟩ := h
    obtain ⟨name, hname⟩ := ident_of_checkIdent hident
    obtain ⟨t, type, ht, hsql⟩ := checkType_eq_nil htype
    refine ⟨⟨name, ⟨f, t, type, rfl, hname, ht, hsql⟩, ?_⟩, f, rfl, rfl, checkKey_eq_nil hkey⟩
    rw [hname.value_eq] at hdup hseen
    rw [checkName, check_eq_nil, List.contains_eq_mem, decide_eq_false_iff_not] at hdup
    exact ⟨hdup, hseen.symm⟩
  | _ => simp [checkField] at h

/-- The loop passes a list of fields if it passes the first one and then the others. -/
theorem checkFields_cons_ok {enforce : Bool} {i n : ℕ} {seen : List PyStr} {field : Json}
    {fields : List Json} (h : checkFields enforce i seen (field :: fields) = .ok ([], n)) :
    ∃ seen' isKey m, checkField enforce i seen field = .ok ([], seen', isKey) ∧
      checkFields enforce (i + 1) seen' fields = .ok ([], m) ∧
      n = (if isKey then 1 else 0) + m := by
  rw [checkFields] at h
  cases hf : checkField enforce i seen field with
  | error e => simp [hf, bind, Except.bind] at h
  | ok res =>
    obtain ⟨errors, seen', isKey⟩ := res
    cases hrest : checkFields enforce (i + 1) seen' fields with
    | error e => simp [hf, hrest, bind, Except.bind] at h
    | ok res' =>
      obtain ⟨rest, m⟩ := res'
      simp only [hf, hrest, bind, Except.bind, pure, Except.pure, Except.ok.injEq,
        Prod.mk.injEq, List.append_eq_nil_iff] at h
      obtain ⟨⟨rfl, rfl⟩, hn⟩ := h
      exact ⟨seen', isKey, m, rfl, hrest, hn.symm⟩

theorem checkFields_ok {enforce : Bool} {i n : ℕ} {seen : List PyStr} {fields : List Json}
    (h : checkFields enforce i seen fields = .ok ([], n)) :
    ∃ names, List.Forall₂ FieldOk fields names ∧ names.Nodup ∧ ∀ x ∈ names, x ∉ seen := by
  induction fields generalizing i n seen with
  | nil => exact ⟨[], .nil, .nil, by simp⟩
  | cons field fields ih =>
    obtain ⟨seen', isKey, m, hf, hrest, -⟩ := checkFields_cons_ok h
    obtain ⟨⟨name, hname, hnew, rfl⟩, -⟩ := checkField_ok hf
    obtain ⟨names, hnames, hnodup, hfresh⟩ := ih hrest
    refine ⟨name :: names, .cons hname hnames, List.nodup_cons.2 ⟨fun hm => ?_, hnodup⟩, ?_⟩
    · exact hfresh name hm (List.mem_cons_self ..)
    · rw [List.forall_mem_cons]
      exact ⟨hnew, fun x hx hs => hfresh x hx (List.mem_cons_of_mem _ hs)⟩

/-- A specification that passes the checks. -/
structure Validated (spec : Json) (name : PyStr) (fields : List Json) (names : List PyStr) :
    Prop where
  members : ∃ m, spec = .obj m ∧ Ident (getKey m "struct_name") name ∧
    getKey m "fields" = .arr fields
  fields_ne_nil : fields ≠ []
  length_le : fields.length ≤ toolMaxColumns
  fields_ok : List.Forall₂ FieldOk fields names
  nodup : names.Nodup
  keys : ∀ m, spec = .obj m → ∃ n ≤ 1,
    checkFields (getKey m "enforce_max_records").truthy 0 [] fields = .ok ([], n)

theorem validated_of_validate {spec : Json} (h : validate spec = .ok ()) :
    ∃ name fields names, Validated spec name fields names := by
  cases spec with
  | obj m =>
    rw [validate] at h
    split_ifs at h
    cases hfields : getKey m "fields" with
    | arr items =>
      cases items with
      | nil => simp [hfields] at h
      | cons field fields =>
        simp only [hfields] at h
        cases hc : checkFields (getKey m "enforce_max_records").truthy 0 [] (field :: fields) with
        | error e => simp [hc, bind, Except.bind] at h
        | ok res =>
          obtain ⟨errors, keys⟩ := res
          simp only [hc, bind, Except.bind] at h
          split_ifs at h with hnil
          simp only [List.isEmpty_iff, List.append_eq_nil_iff, check_eq_nil] at hnil
          obtain ⟨⟨⟨hhead, hlen⟩, rfl⟩, hkeys⟩ := hnil
          simp only [checkHead, List.append_eq_nil_iff] at hhead
          obtain ⟨⟨⟨⟨-, hname⟩, -⟩, -⟩, -⟩ := hhead
          obtain ⟨name, hname⟩ := ident_of_checkIdent hname
          obtain ⟨names, hnames, hnodup, -⟩ := checkFields_ok hc
          rw [decide_eq_false_iff_not, not_lt] at hlen hkeys
          refine ⟨name, _, names, ⟨m, rfl, hname, hfields⟩, by simp, hlen, hnames, hnodup, ?_⟩
          rintro m' ⟨⟩
          exact ⟨keys, hkeys, hc⟩
    | _ => simp [hfields] at h
  | _ => cases h

/-! ## What is derived -/

/-- The column of a field, as far as the registry looks at it. -/
structure DerivedFrom (name : PyStr) (c : SqlRDBColumnDef) : Prop where
  name_eq : c.name = encode name
  int32_size : c.type = .int32 → c.size = 4
  int64_size : c.type = .int64 → c.size = 8

theorem FieldOk.derives {field : Json} {name : PyStr} (h : FieldOk field name) (offset : ℕ) :
    ∃ c, deriveColumn offset field = some c ∧ DerivedFrom name c := by
  obtain ⟨f, t, type, rfl, hname, ht, htype⟩ := h.members
  have hmn := member_of_getKey hname.value_eq nofun
  have hmt := member_of_getKey ht nofun
  refine ⟨⟨encode name, type, offset, memberSize type (getKey f "size"), fieldFlags f⟩, ?_, rfl,
    fun h => ?_, fun h => ?_⟩
  · simp [deriveColumn, hmn, hmt, htype]
  · obtain rfl : type = .int32 := h
    rfl
  · obtain rfl : type = .int64 := h
    rfl

theorem derives_fields {fields : List Json} {names : List PyStr}
    (h : List.Forall₂ FieldOk fields names) (offset : ℕ → ℕ) (k : ℕ) :
    ∃ cols, (fields.zipIdx k).mapM (fun p => deriveColumn (offset p.2) p.1) = some cols ∧
      List.Forall₂ DerivedFrom names cols := by
  induction h generalizing k with
  | nil => exact ⟨[], rfl, .nil⟩
  | cons hfield _ ih =>
    obtain ⟨c, hc, hd⟩ := hfield.derives (offset k)
    obtain ⟨cols, hcols, hds⟩ := ih (k + 1)
    exact ⟨c :: cols, by simp [List.zipIdx_cons, hc, hcols], .cons hd hds⟩

theorem flatMap_fieldName {fields : List Json} {names : List PyStr}
    (h : List.Forall₂ FieldOk fields names) : fields.flatMap fieldName = names := by
  induction h with
  | nil => rfl
  | cons hfield _ ih =>
    obtain ⟨f, t, type, rfl, hname, -, -⟩ := hfield.members
    rw [List.flatMap_cons, ih, fieldName, hname.value_eq]
    rfl

/-- The names of validated fields are identifiers of the tool. -/
theorem ident_of_fieldsOk {fields : List Json} {names : List PyStr}
    (h : List.Forall₂ FieldOk fields names) :
    ∀ s ∈ names, identRe s = true ∧ s.length ≤ toolMaxIdentLen := by
  induction h with
  | nil => simp
  | cons hfield _ ih =>
    obtain ⟨f, t, type, rfl, hname, -, -⟩ := hfield.members
    exact List.forall_mem_cons.2 ⟨⟨hname.re, hname.length_le⟩, ih⟩

/-- The checks of the registry on derived columns. -/
theorem columnsOk_iff {names : List PyStr} {cols : List SqlRDBColumnDef}
    (h : List.Forall₂ DerivedFrom names cols)
    (hident : ∀ s ∈ names, identRe s = true ∧ s.length ≤ toolMaxIdentLen) :
    (∀ c ∈ cols, ColumnOk c) ↔ ∀ s ∈ names, PyStr.Registrable s := by
  induction h with
  | nil => simp
  | cons hd _ ih =>
    rw [List.forall_mem_cons] at hident ⊢
    rw [List.forall_mem_cons, ih hident.2, ColumnOk, hd.name_eq,
      identifierValid_encode_iff hident.1.1 hident.1.2]
    exact and_congr_left fun _ => ⟨fun h => h.1, fun h => ⟨h, hd.int32_size, hd.int64_size⟩⟩

theorem nodup_derived {names : List PyStr} {cols : List SqlRDBColumnDef}
    (h : List.Forall₂ DerivedFrom names cols)
    (hident : ∀ s ∈ names, identRe s = true ∧ s.length ≤ toolMaxIdentLen) (hn : names.Nodup) :
    (cols.map fun c => c.name).Nodup := by
  have hmap : cols.map (fun c => c.name) = names.map encode := by
    induction h with
    | nil => rfl
    | cons hd _ ih =>
      rw [List.map_cons, List.map_cons, hd.name_eq,
        ih (fun s hs => hident s (List.mem_cons_of_mem _ hs)) (List.nodup_cons.1 hn).2]
  rw [hmap]
  refine hn.map_on fun a ha b hb hab => ?_
  rw [← map_toNat_encode (lt_of_identRe (hident a ha).1), hab,
    map_toNat_encode (lt_of_identRe (hident b hb).1)]

/-- **A validated specification can be registered** in an empty registry exactly if none of its
names ends in a newline or is reserved by the library. -/
theorem validated_registers_iff {σ : Type} {h : SqlRDBHandle σ} (hv : h.valid = true)
    (hempty : h.registry.entries = []) (hheap : ∀ k, h.heap.fails k = false) {spec : Json}
    (hspec : validate spec = .ok ()) (offset : ℕ → ℕ) :
    ∃ name cols, derive offset spec = some (name, cols) ∧
      ((internalSchemaRegister (some name) (some (cols.map some)) h).1 = .ok ↔
        ∀ s ∈ specNames spec, PyStr.Registrable s) := by
  obtain ⟨name, fields, names, hval⟩ := validated_of_validate hspec
  obtain ⟨m, rfl, hname, hfields⟩ := hval.members
  obtain ⟨cols, hcols, hderived⟩ := derives_fields hval.fields_ok offset 0
  have hident := ident_of_fieldsOk hval.fields_ok
  have hlen : cols.length = fields.length := by
    rw [← hderived.length_eq, hval.fields_ok.length_eq]
  have hne : cols ≠ [] := by
    rw [ne_eq, ← List.length_eq_zero_iff, hlen, List.length_eq_zero_iff]
    exact hval.fields_ne_nil
  refine ⟨encode name, cols, ?_, ?_⟩
  · simp [derive, member_of_getKey hname.value_eq nofun, member_of_getKey hfields nofun, hcols]
  · have hnames : specNames (.obj m) = name :: names := by
      simp only [specNames, hfields, hname.value_eq, flatMap_fieldName hval.fields_ok]
      rfl
    rw [internalSchemaRegister_ok_iff hv hheap, hempty, checkSchema_ok_iff, hnames,
      List.forall_mem_cons, columnsOk_iff hderived hident,
      identifierValid_encode_iff hname.re hname.length_le]
    have hle : cols.length ≤ maxColumns := hlen ▸ hval.length_le
    have hnd := nodup_derived hderived hident hval.nodup
    exact ⟨fun h => ⟨h.2.2.1, h.2.2.2.2.1⟩, fun h => ⟨hne, hle, h.1, by simp, h.2, hnd⟩⟩

instance (spec : Json) : Decidable (validate spec = .ok ()) :=
  match validate spec with
  | .ok () => isTrue rfl
  | .error _ => isFalse nofun

/-- `specs/persons.json`, with the given name for its last column. -/
def personsSpec (last : String) : Json :=
  .obj [(py "schema_version", .str (py "1.0")), (py "struct_name", .str (py "persons")),
    (py "c_struct", .str (py "Person")), (py "backend", .str (py "sqlite3")),
    (py "max_records", .int 100000),
    (py "fields", .arr [
      .obj [(py "name", .str (py "id")), (py "type", .str (py "int32")),
        (py "primary_key", .bool true)],
      .obj [(py "name", .str (py "name")), (py "type", .str (py "text")), (py "size", .int 32)],
      .obj [(py "name", .str (py last)), (py "type", .str (py "real")),
        (py "nullable", .bool true)]])]

/-- The offsets of the members of `Person`. -/
def personOffset (i : ℕ) : ℕ := [0, 4, 40].getD i 0

/-- A new handle, on an allocator that does not fail. -/
def newHandle : SqlRDBHandle Unit :=
  freshHandle () ⟨fun _ => false, fun _ => false, 0, 1, ⟨[], [], none⟩, false⟩

theorem validated_registers_sample :
    validate (personsSpec "score") = .ok () ∧
      ∃ name cols, derive personOffset (personsSpec "score") = some (name, cols) ∧
        (internalSchemaRegister (some name) (some (cols.map some)) newHandle).1 = .ok := by
  have hspec : validate (personsSpec "score") = .ok () := by decide +kernel
  obtain ⟨name, cols, hderive, hiff⟩ := validated_registers_iff (h := newHandle)
    (by decide +kernel) rfl (fun _ => rfl) hspec personOffset
  exact ⟨hspec, name, cols, hderive, hiff.2 (by decide +kernel)⟩

/-- The tool does not know all the words that the library reserves. -/
theorem validated_name_reserved :
    validate (personsSpec "limit") = .ok () ∧
      ∃ name cols, derive personOffset (personsSpec "limit") = some (name, cols) ∧
        (internalSchemaRegister (some name) (some (cols.map some)) newHandle).1 =
          .errInvalidName := by
  refine ⟨by decide +kernel, lit "persons", [⟨lit "id", .int32, 0, 4, flagPrimaryKey⟩,
    ⟨lit "name", .text, 4, 32, 0⟩, ⟨lit "limit", .real, 40, 8, flagNullable⟩],
    by decide +kernel, by decide +kernel⟩

/-- What is derived from `specs/persons.json` is what `generated/persons_schema.c` registers. -/
example : derive personOffset (personsSpec "score") = some (lit "persons", personsCols) := by
  decide +kernel

end C2Sql
