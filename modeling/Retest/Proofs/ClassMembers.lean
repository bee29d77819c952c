import Retest.Proofs.Decoding

/-! Fields and methods: how they are written behind the header, the grammar of their descriptors,
and which of the types that they declare are imports of the class. -/

namespace Retest.ClassFile

/-! ## Descriptors of fields and methods -/

inductive FieldDescriptor : List Char → List (List Char) → Prop
  | primitive (c : Char) (hc : c ∈ ['B', 'C', 'D', 'F', 'I', 'J', 'S', 'Z']) :
    FieldDescriptor [c] []
  | class (name : List Char) (hn : ';' ∉ name) : FieldDescriptor ('L' :: (name ++ [';'])) [name]
  | array (element : List Char) (names : List (List Char)) (he : FieldDescriptor element names) :
    FieldDescriptor ('[' :: element) names

inductive Parameters : List Char → List (List Char) → Prop
  | nil : Parameters [] []
  | cons (type rest : List Char) (names others : List (List Char))
    (ht : FieldDescriptor type names) (hr : Parameters rest others) :
    Parameters (type ++ rest) (names ++ others)

inductive MethodDescriptor : List Char → List (List Char) → Prop
  | void (types : List Char) (names : List (List Char)) (ht : Parameters types names) :
    MethodDescriptor ('(' :: (types ++ [')', 'V'])) names
  | returns (types result : List Char) (names others : List (List Char))
    (ht : Parameters types names) (hr : FieldDescriptor result others) :
    MethodDescriptor ('(' :: (types ++ ')' :: result)) (names ++ others)

/-- A scan that has read the type of a field has found its names and looks for the next one. -/
theorem FieldDescriptor.stretches_append {type : List Char} {names : List (List Char)}
    (h : FieldDescriptor type names) (rest : List Char) :
    stretches none (type ++ rest) = names ++ stretches none rest := by
  induction h with
  | primitive c hc =>
    -- Only `L` opens a name, and no primitive type is written so.
    have hopen : 'L' ∉ [c] := by
      rintro hL
      obtain rfl := List.mem_singleton.mp hL
      exact absurd hc (by decide)
    exact stretches_before [c] rest hopen
  | «class» name hn =>
    rw [List.cons_append, List.append_assoc]
    exact stretches_first [] name rest List.not_mem_nil hn
  | array element names _ ih =>
    -- The bracket is passed over, so an array names what its elements name.
    rw [List.cons_append, stretches, if_neg (by decide)]
    exact ih

theorem Parameters.stretches_append {types : List Char} {names : List (List Char)}
    (h : Parameters types names) (rest : List Char) :
    stretches none (types ++ rest) = names ++ stretches none rest := by
  induction h with
  | nil => rfl
  | cons type more names others ht _ ih =>
    rw [List.append_assoc, ht.stretches_append, ih, List.append_assoc]

theorem FieldDescriptor.stretches_eq {type : List Char} {names : List (List Char)}
    (h : FieldDescriptor type names) : stretches none type = names := by
  have hscan := h.stretches_append []
  rwa [List.append_nil, stretches, List.append_nil] at hscan

theorem MethodDescriptor.stretches_eq {type : List Char} {names : List (List Char)}
    (h : MethodDescriptor type names) : stretches none type = names := by
  have hbracket (c : Char) (hc : c ∈ ['(', ')']) (s : List Char) :
      stretches none (c :: s) = stretches none s := by
    refine stretches_before [c] s ?_
    intro hL
    obtain rfl := List.mem_singleton.mp hL
    exact absurd hc (by decide)
  cases h with
  | void types names ht =>
    rw [hbracket '(' (by decide), ht.stretches_append, hbracket ')' (by decide)]
    exact List.append_nil names
  | returns types result names others ht hr =>
    rw [hbracket '(' (by decide), ht.stretches_append, hbracket ')' (by decide), hr.stretches_eq]

/-! ## What stands behind the header -/

theorem Constants.append {es more : List Entry} {w w' : List UInt8} (h : Constants es w)
    (hm : Constants more w') : Constants (es ++ more) (w ++ w') := by
  induction h with
  | nil => exact hm
  | cons tag e payload es rest he _ ih =>
    rw [List.cons_append, List.cons_append, List.append_assoc]
    exact .cons tag e payload _ _ he ih

inductive Rows {α : Type} (Row : α → List UInt8 → Prop) : List α → List UInt8 → Prop
  | nil : Rows Row [] []
  | cons (x : α) (xs : List α) (w ws : List UInt8) (hx : Row x w) (hxs : Rows Row xs ws) :
    Rows Row (x :: xs) (w ++ ws)

inductive Table {α : Type} (Row : α → List UInt8 → Prop) : List α → List UInt8 → Prop
  | mk (a b : UInt8) (xs : List α) (ws : List UInt8) (hn : xs.length = pair a b)
    (hxs : Rows Row xs ws) : Table Row xs (a :: b :: ws)

structure Attribute where
  name : Nat
  info : List UInt8

inductive Attribute.Form : Attribute → List UInt8 → Prop
  | mk (a b p q r s : UInt8) (info : List UInt8) (hn : info.length = bigEndian [p, q, r, s]) :
    Form ⟨pair a b, info⟩ ([a, b, p, q, r, s] ++ info)

/-- A field or a method: its flags, the slots of its name and its descriptor, and attributes. -/
structure Member where
  flags : Nat
  name : Nat
  descriptor : Nat
  attributes : List Attribute

inductive Member.Form : Member → List UInt8 → Prop
  | mk (a b c d e f : UInt8) (attributes : List Attribute) (ws : List UInt8)
    (hw : Table Attribute.Form attributes ws) :
    Form ⟨pair a b, pair c d, pair e f, attributes⟩ ([a, b, c, d, e, f] ++ ws)

structure Body where
  interfaces : List Nat
  fields : List Member
  methods : List Member
  attributes : List Attribute

inductive Body.Form : Body → List UInt8 → Prop
  | mk (b : Body) (is fs ms as : List UInt8)
    (hi : Table (fun i w => ∃ c d, i = pair c d ∧ w = [c, d]) b.interfaces is)
    (hf : Table Member.Form b.fields fs) (hm : Table Member.Form b.methods ms)
    (ha : Table Attribute.Form b.attributes as) : Form b (is ++ fs ++ ms ++ as)

structure Member.Valid (f : Image) (Descriptor : List Char → List (List Char) → Prop)
    (m : Member) : Prop where
  name : ∃ text, Holds f.constants m.name (.text text)
  descriptor : ∃ type names, Holds f.constants m.descriptor (.text type) ∧ Descriptor type names
  attributes : ∀ a ∈ m.attributes, ∃ text, Holds f.constants a.name (.text text)

structure WellFormed (f : Image) (b : Body) (bytes : List UInt8) : Prop where
  valid : f.Valid
  written : ∃ head body, f.Head head ∧ b.Form body ∧ bytes = head ++ body
  interfaces : ∀ i ∈ b.interfaces, ∃ text, ClassAt f.constants i text
  fields : ∀ m ∈ b.fields, m.Valid f FieldDescriptor
  methods : ∀ m ∈ b.methods, m.Valid f MethodDescriptor
  attributes : ∀ a ∈ b.attributes, ∃ text, Holds f.constants a.name (.text text)

def Member.Types (f : Image) (Descriptor : List Char → List (List Char) → Prop) (m : Member)
    (n : String) : Prop :=
  ∃ type names, Holds f.constants m.descriptor (.text type) ∧ Descriptor type names ∧
    ∃ name ∈ names, n = binaryName name

def Declares (f : Image) (b : Body) (n : String) : Prop :=
  (∃ m ∈ b.fields, m.Types f FieldDescriptor n) ∨ ∃ m ∈ b.methods, m.Types f MethodDescriptor n

/-- A constant other than a class has this descriptor: the name and type of a member that is used,
or the type of a method. -/
def Image.Mentions (f : Image) (descriptor : Nat) : Prop :=
  ∃ i, Holds f.constants i (.nameAndType descriptor) ∨ Holds f.constants i (.methodType descriptor)

/-- The types of a member whose descriptor another constant has are classes that constants
refer to. -/
theorem Member.Types.refers {f : Image} {m : Member}
    {Descriptor : List Char → List (List Char) → Prop} {n : String}
    (hscan : ∀ {type names}, Descriptor type names → stretches none type = names)
    (h : m.Types f Descriptor n) (hm : f.Mentions m.descriptor) : Refers f.constants n := by
  obtain ⟨type, names, htext, htype, name, hname, rfl⟩ := h
  have hnames : Names type name := by
    rw [← mem_stretches, hscan htype]
    exact hname
  obtain ⟨i, hi | hi⟩ := hm
  · exact .nameAndType i m.descriptor type name hi htext hnames
  · exact .methodType i m.descriptor type name hi htext hnames

/-- A class that is well formed always decodes, and alike whatever it declares. A type that it
declares is an import just when its constants refer to it by something else than the declaration;
so it is for every member that is also used. -/
theorem declared_type_imported_iff {f : Image} {b : Body} {bytes : List UInt8}
    (hw : WellFormed f b bytes) (file : Option Path) :
    ∃ c, decode bytes file = .ok c ∧
      (∀ b' bytes', WellFormed f b' bytes' → decode bytes' file = .ok c) ∧
      (∀ n, Declares f b n → n ≠ c.name → (n ∈ c.imports.toList ↔ Refers f.constants n)) ∧
      (∀ m ∈ b.fields, f.Mentions m.descriptor → ∀ n, m.Types f FieldDescriptor n →
        n ≠ c.name → n ∈ c.imports.toList) ∧
      ∀ m ∈ b.methods, f.Mentions m.descriptor → ∀ n, m.Types f MethodDescriptor n →
        n ≠ c.name → n ∈ c.imports.toList := by
  obtain ⟨h, hmakes⟩ := hw.valid.exists_makes
  have hclass := hmakes.describes hw.valid file
  -- Decoding ends with the header, whatever comes behind it.
  have hdecode (b' : Body) (bytes' : List UInt8) (hw' : WellFormed f b' bytes') :
      decode bytes' file = .ok (h.toClass file) := by
    obtain ⟨head, body, hhead, -, rfl⟩ := hw'.written
    rw [decode, reads_header.takes h head ⟨f, hhead, hw'.valid, hmakes⟩ body 0]
    rfl
  refine ⟨h.toClass file, hdecode b bytes hw, hdecode, ?_, ?_, ?_⟩
  · intro n _ hn
    rw [hclass.imports, and_iff_right hn]
  · intro m _ hm n hn hne
    exact (hclass.imports n).mpr ⟨hne, hn.refers FieldDescriptor.stretches_eq hm⟩
  · intro m _ hm n hn hne
    exact (hclass.imports n).mpr ⟨hne, hn.refers MethodDescriptor.stretches_eq hm⟩

/-- The constants of a class `A` with a field `b` of class `B`, as far as nothing uses the field. -/
def fieldConstants : List Entry :=
  [.narrow (.text (Utf8.decodeLossy [65])), .narrow (.classRef 1),
    .narrow (.text (Utf8.decodeLossy [106, 97, 118, 97, 47, 108, 97, 110, 103, 47, 79, 98, 106,
      101, 99, 116])), .narrow (.classRef 3),
    .narrow (.text (Utf8.decodeLossy [98])), .narrow (.text (Utf8.decodeLossy [76, 66, 59]))]

def fieldConstantsBytes : List UInt8 :=
  [1, 0, 1, 65, 7, 0, 1, 1, 0, 16, 106, 97, 118, 97, 47, 108, 97, 110, 103, 47, 79, 98, 106, 101,
    99, 116, 7, 0, 3, 1, 0, 1, 98, 1, 0, 3, 76, 66, 59]

def fieldTrial (count : UInt8) (more : List Entry) : Image :=
  ⟨pair 0 count, fieldConstants ++ more, 0x21, 2, 4⟩

def fieldTrialBody : Body := ⟨[], [⟨0, 5, 6, []⟩], [], []⟩

def fieldTrialBytes (count : UInt8) (more : List UInt8) : List UInt8 :=
  [0xCA, 0xFE, 0xBA, 0xBE, 0, 0, 0, 52, 0, count] ++
    (fieldConstantsBytes ++ more ++ [0, 0x21, 0, 2, 0, 4]) ++
      [0, 0, 0, 1, 0, 0, 0, 5, 0, 6, 0, 0, 0, 0, 0, 0]

theorem fieldConstants_written : Constants fieldConstants fieldConstantsBytes :=
  .cons 1 _ _ _ _ (.text 0 1 [65] rfl) <| .cons 7 _ _ _ _ (.classRef 0 1) <|
    .cons 1 _ _ _ _ (.text 0 16 [106, 97, 118, 97, 47, 108, 97, 110, 103, 47, 79, 98, 106, 101, 99,
      116] rfl) <| .cons 7 _ _ _ _ (.classRef 0 3) <| .cons 1 _ _ _ _ (.text 0 1 [98] rfl) <|
        .cons 1 _ _ _ _ (.text 0 3 [76, 66, 59] rfl) .nil

theorem fieldTrialBody_form :
    fieldTrialBody.Form [0, 0, 0, 1, 0, 0, 0, 5, 0, 6, 0, 0, 0, 0, 0, 0] := by
  have hattributes : Table Attribute.Form [] [0, 0] := .mk 0 0 [] [] rfl .nil
  have hfield : Member.Form ⟨0, 5, 6, []⟩ [0, 0, 0, 5, 0, 6, 0, 0] :=
    .mk 0 0 0 5 0 6 [] [0, 0] hattributes
  exact .mk fieldTrialBody [0, 0] [0, 1, 0, 0, 0, 5, 0, 6, 0, 0] [0, 0] [0, 0]
    (.mk 0 0 [] [] rfl .nil) (.mk 0 1 _ _ rfl (.cons _ [] _ [] hfield .nil))
    (.mk 0 0 [] [] rfl .nil) hattributes

theorem fieldTrial_holds_type (count : UInt8) (more : List Entry) :
    Holds (fieldTrial count more).constants 6 (.text ['L', 'B', ';']) :=
  ⟨[_, _, _, _, _], more, rfl, rfl⟩

theorem fieldTrial_wellFormed (count : UInt8) {more : List Entry} {w : List UInt8}
    (h : Constants more w) (hcount : pair 0 count - 1 = 6 + width more) :
    WellFormed (fieldTrial count more) fieldTrialBody (fieldTrialBytes count w) where
  valid := by
    refine ⟨Or.inl ?_, ?_, Or.inr ?_⟩
    · change width (fieldConstants ++ more) = pair 0 count - 1
      rw [width_append, hcount]
      rfl
    · exact ⟨_, 1, ⟨[_], _, rfl, rfl⟩, ⟨[], _, rfl, rfl⟩⟩
    · exact ⟨_, 3, ⟨[_, _, _], _, rfl, rfl⟩, ⟨[_, _], _, rfl, rfl⟩⟩
  written := ⟨_, _, .mk 0 0 0 52 0 count _ _ (fieldConstants_written.append h) 0 0x21 0 2 0 4,
    fieldTrialBody_form, rfl⟩
  interfaces i hi := absurd hi List.not_mem_nil
  fields m hm := by
    obtain rfl := List.mem_singleton.mp hm
    have hname : Holds (fieldTrial count more).constants 5 (.text ['b']) :=
      ⟨[_, _, _, _], .narrow (.text (Utf8.decodeLossy [76, 66, 59])) :: more, rfl, rfl⟩
    refine ⟨⟨_, hname⟩, ?_, fun a ha => absurd ha List.not_mem_nil⟩
    exact ⟨_, [['B']], fieldTrial_holds_type count more, .class ['B'] (by decide)⟩
  methods m hm := absurd hm List.not_mem_nil
  attributes a ha := absurd ha List.not_mem_nil

theorem fieldTrial_types (count : UInt8) (more : List Entry) :
    Member.Types (fieldTrial count more) FieldDescriptor ⟨0, 5, 6, []⟩ "B" :=
  ⟨['L', 'B', ';'], [['B']], fieldTrial_holds_type count more, .class ['B'] (by decide), ['B'],
    List.mem_singleton_self _, rfl⟩

/-- The type of a field that nothing uses is missing from the imports. -/
theorem unused_field_type_is_missed :
    WellFormed (fieldTrial 7 []) fieldTrialBody (fieldTrialBytes 7 []) ∧
      Declares (fieldTrial 7 []) fieldTrialBody "B" ∧
      ∃ c, decode (fieldTrialBytes 7 []) none = .ok c ∧ c.name = "A" ∧ "B" ∉ c.imports.toList := by
  refine ⟨fieldTrial_wellFormed 7 .nil (by decide), Or.inl ⟨_, List.mem_singleton_self _,
    fieldTrial_types 7 []⟩, ?_⟩
  have hread : (decode (fieldTrialBytes 7 []) none).toOption.map
      (fun c => (c.name, c.imports.toList)) = some ("A", ["java.lang.Object"]) := by
    decide +kernel
  cases hc : decode (fieldTrialBytes 7 []) none with
  | error e =>
    rw [hc] at hread
    cases hread
  | ok c =>
    rw [hc] at hread
    obtain ⟨hname, himports⟩ := Prod.mk.inj (Option.some.inj hread)
    refine ⟨c, rfl, hname, ?_⟩
    rw [himports]
    decide

/-- Once a method uses the field, the class refers to it with its name and type. -/
theorem used_field_type_is_imported : ∃ c,
    decode (fieldTrialBytes 9 [12, 0, 5, 0, 6, 9, 0, 2, 0, 7]) none = .ok c ∧
      c.name = "A" ∧ "B" ∈ c.imports.toList := by
  have hmore :
      Constants [.narrow (.nameAndType 6), .narrow .other] [12, 0, 5, 0, 6, 9, 0, 2, 0, 7] :=
    .cons 12 _ _ _ _ (.nameAndType 0 5 0 6) <| .cons 9 _ [0, 2, 0, 7] _ _ (.plain 9 _ (by decide))
      .nil
  obtain ⟨c, hc, -, -, hused, -⟩ :=
    declared_type_imported_iff (fieldTrial_wellFormed 9 hmore (by decide)) none
  have hname : c.name = "A" := by
    have hread : (decode (fieldTrialBytes 9 [12, 0, 5, 0, 6, 9, 0, 2, 0, 7]) none).toOption.map
        JvmClass.name = some "A" := by
      decide +kernel
    rw [hc] at hread
    exact Option.some.inj hread
  refine ⟨c, hc, hname, hused _ (List.mem_singleton_self _) ?_ "B" (fieldTrial_types 9 _) ?_⟩
  · exact ⟨7, Or.inl ⟨[_, _, _, _, _, _], [_], rfl, rfl⟩⟩
  · rw [hname]
    decide

end Retest.ClassFile
