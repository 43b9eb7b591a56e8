import Selection.Proofs.Compilation
import Selection.Proofs.Path
import Selection.Sample.Customers

/-! # Walking the schemas along a path

The names of a path lead from one record type to the next through nested records, and the last name
is looked up in the record type that they end at. A path resolves exactly when it finds a scalar or
a collection there. Otherwise it is refused at one of its names, with an error that tells the whole
path; an unknown field also tells the record type that the walk had come to. A record is read along
the same path, by the getters that the walk meets, until a nested record is absent.
-/

namespace Selection

namespace Catalog

variable {ι : Type}

/-- Names lead from a record type through nested records to the record type that the last name is
looked up in. -/
inductive Leads (catalog : Catalog ι) : ι → List String → ι → String → Prop
  | here (record : ι) (name : String) : Leads catalog record [name] record name
  | through {record inner holder : ι} {name last : String} {rest : List String}
      (hnested : (catalog record).field? name = some (.nested inner))
      (hrest : Leads catalog inner rest holder last) :
      Leads catalog record (name :: rest) holder last

/-- A dotted path leads from a record type to a name that is looked up in the last one. -/
def EndsAt (catalog : Catalog ι) (record : ι) (path : String) (holder : ι) (name : String) : Prop :=
  catalog.Leads record (Text.segments path) holder name

/-- What some names resolve to when the field that they end at is known. A nested record is nothing
to end at, and a collection keeps its link when a single name leads to it. -/
def resolution? (names : List String) : Field ι → Option (Resolution ι)
  | .scalar type => some (.scalar type)
  | .nested _ => none
  | .collection element link =>
    some (.collection element (if names.length = 1 then link else none))

/-- The error of a path at a name of a record type where it cannot go on or cannot end; `rest` are
the names to come. -/
inductive Refuses (catalog : Catalog ι) (path : String) (holder : ι) (name : String)
    (rest : List String) : CompileError → Prop
  | unregistered (hfield : (catalog holder).field? name = none) :
      Refuses catalog path holder name rest (.unknownField (catalog holder).name path)
  | pastScalar (type : DataType) (hfield : (catalog holder).field? name = some (.scalar type))
      (hrest : rest ≠ []) :
      Refuses catalog path holder name rest (.unknownField (catalog holder).name path)
  | atRecord (inner : ι) (hfield : (catalog holder).field? name = some (.nested inner))
      (hrest : rest = []) :
      Refuses catalog path holder name rest (.fieldKindMismatch path .scalar .record)
  | pastCollection (element : ι) (link : Option Link)
      (hfield : (catalog holder).field? name = some (.collection element link))
      (hrest : rest ≠ []) :
      Refuses catalog path holder name rest (.fieldKindMismatch path .record .collection)

/-- Names at the front lead to one that refuses the path. -/
def RefusedOn (catalog : Catalog ι) (path : String) (record : ι) (names : List String)
    (e : CompileError) : Prop :=
  ∃ front rest holder name, names = front ++ rest ∧ catalog.Leads record front holder name ∧
    catalog.Refuses path holder name rest e

variable {catalog : Catalog ι} {path : String} {record : ι} {names : List String}

theorem Leads.ne_nil {holder : ι} {last : String} (h : catalog.Leads record names holder last) :
    names ≠ [] := by
  cases h <;> exact List.cons_ne_nil _ _

theorem Leads.getLast?_eq {holder : ι} {last : String}
    (h : catalog.Leads record names holder last) : names.getLast? = some last := by
  induction h with
  | here => rfl
  | through _ _ ih => rw [List.getLast?_cons, ih]; rfl

/-- The names of a path end with one name, whether they are followed through the schemas or through
a record. -/
theorem EndsAt.same_name {stop : ι} {name last : String} {r holder : Record}
    (h : catalog.EndsAt record path stop name) (hr : r.EndsAt path holder last) : name = last :=
  Option.some.inj (h.getLast?_eq.symm.trans hr.getLast?_eq)

/-- A walk through a nested record is the walk from there, seen from outside. -/
theorem walk_through {name : String} {inner : ι} (hnames : names ≠ [])
    (hnested : (catalog record).field? name = some (.nested inner)) :
    catalog.walk path record (name :: names) =
      (catalog.walk path inner names).map Resolution.outward := by
  rw [walk, hnested]
  exact if_neg (by rwa [List.isEmpty_iff])

/-! ## Paths that resolve -/

/-- One more name in front shows a field from the record type around it. -/
theorem resolution?_cons (hnames : names ≠ []) (name : String) (field : Field ι) :
    resolution? (name :: names) field = (resolution? names field).map Resolution.outward := by
  cases field with
  | scalar type => rfl
  | nested inner => rfl
  | collection element link => simp [resolution?, Resolution.outward, hnames]

/-- A walk that resolves was led to a field of the last record type. -/
theorem exists_leads_of_walk {found : Resolution ι}
    (h : catalog.walk path record names = .ok found) :
    ∃ holder last field, catalog.Leads record names holder last ∧
      (catalog holder).field? last = some field ∧ resolution? names field = some found := by
  fun_induction walk catalog path record names generalizing found with
  | case3 record name rest type hfield hlast =>
      obtain rfl := Except.ok.inj h
      obtain rfl := List.isEmpty_iff.mp hlast
      exact ⟨record, name, _, .here record name, hfield, rfl⟩
  -- Behind a nested record the rest of the path resolves to the same field, seen from further out.
  | case6 record name rest inner hnested hmore ih =>
      have hrest : rest ≠ [] := by rwa [List.isEmpty_iff] at hmore
      cases hwalk : catalog.walk path inner rest with
      | error e =>
          rw [hwalk] at h
          contradiction
      | ok found' =>
          rw [hwalk] at h
          obtain rfl := Except.ok.inj h
          obtain ⟨holder, last, field, hleads, hfield, hfound⟩ := ih hwalk
          refine ⟨holder, last, field, .through hnested hleads, hfield, ?_⟩
          rw [resolution?_cons hrest, hfound]
          rfl
  | case7 record name rest element link hfield hlast =>
      obtain rfl := Except.ok.inj h
      obtain rfl := List.isEmpty_iff.mp hlast
      exact ⟨record, name, _, .here record name, hfield, rfl⟩
  | _ => contradiction

theorem Leads.walk_eq_ok {holder : ι} {last : String} {field : Field ι} {found : Resolution ι}
    (h : catalog.Leads record names holder last)
    (hfield : (catalog holder).field? last = some field)
    (hfound : resolution? names field = some found) :
    catalog.walk path record names = .ok found := by
  induction h generalizing found with
  | here record name =>
      cases field with
      | nested inner => contradiction
      | scalar type | collection element link =>
          rw [walk, hfield]
          exact congrArg Except.ok (Option.some.inj hfound)
  | through hnested hrest ih =>
      rw [resolution?_cons hrest.ne_nil] at hfound
      obtain ⟨inner, hinner, rfl⟩ := Option.map_eq_some_iff.mp hfound
      rw [walk_through hrest.ne_nil hnested, ih hfield hinner]
      rfl

/-- Names resolve just to what they lead to. -/
theorem walk_eq_ok_iff {found : Resolution ι} :
    catalog.walk path record names = .ok found ↔
      ∃ holder last field, catalog.Leads record names holder last ∧
        (catalog holder).field? last = some field ∧ resolution? names field = some found := by
  constructor
  · exact exists_leads_of_walk
  · rintro ⟨holder, last, field, hleads, hfield, hfound⟩
    exact hleads.walk_eq_ok hfield hfound

theorem resolution?_eq_scalar_iff {field : Field ι} {type : DataType} :
    resolution? names field = some (.scalar type) ↔ field = .scalar type := by
  cases field <;> simp [resolution?]

theorem resolution?_eq_collection_iff {field : Field ι} {element : ι} {link : Option Link} :
    resolution? names field = some (.collection element link) ↔
      ∃ keys, field = .collection element keys ∧
        link = if names.length = 1 then keys else none := by
  cases field <;> simp [resolution?, eq_comm]

/-- A path resolves to a scalar when it ends at one. -/
theorem resolve_eq_scalar_iff {type : DataType} :
    catalog.resolve record path = .ok (.scalar type) ↔
      ∃ holder name, catalog.EndsAt record path holder name ∧
        (catalog holder).field? name = some (.scalar type) := by
  rw [resolve, walk_eq_ok_iff]
  constructor
  · rintro ⟨holder, name, field, hleads, hfield, hfound⟩
    obtain rfl := resolution?_eq_scalar_iff.mp hfound
    exact ⟨holder, name, hleads, hfield⟩
  · rintro ⟨holder, name, hleads, hfield⟩
    exact ⟨holder, name, _, hleads, hfield, rfl⟩

/-- A path resolves to a collection when it ends at one, with its link when the path is a single
name. -/
theorem resolve_eq_collection_iff {element : ι} {link : Option Link} :
    catalog.resolve record path = .ok (.collection element link) ↔
      ∃ holder name keys, catalog.EndsAt record path holder name ∧
        (catalog holder).field? name = some (.collection element keys) ∧
        link = if (Text.segments path).length = 1 then keys else none := by
  rw [resolve, walk_eq_ok_iff]
  constructor
  · rintro ⟨holder, name, field, hleads, hfield, hfound⟩
    obtain ⟨keys, rfl, hlink⟩ := resolution?_eq_collection_iff.mp hfound
    exact ⟨holder, name, keys, hleads, hfield, hlink⟩
  · rintro ⟨holder, name, keys, hleads, hfield, rfl⟩
    exact ⟨holder, name, _, hleads, hfield, rfl⟩

/-! ## Paths that are refused -/

theorem RefusedOn.here {name : String} {e : CompileError}
    (h : catalog.Refuses path record name names e) :
    catalog.RefusedOn path record (name :: names) e :=
  ⟨[name], names, record, name, rfl, .here record name, h⟩

theorem RefusedOn.through {name : String} {inner : ι} {e : CompileError}
    (hnested : (catalog record).field? name = some (.nested inner))
    (h : catalog.RefusedOn path inner names e) :
    catalog.RefusedOn path record (name :: names) e := by
  obtain ⟨front, rest, holder, last, rfl, hleads, hrefuses⟩ := h
  exact ⟨name :: front, rest, holder, last, rfl, .through hnested hleads, hrefuses⟩

/-- A walk that fails was refused at one of its names. -/
theorem refusedOn_of_walk {e : CompileError} (hnames : names ≠ [])
    (h : catalog.walk path record names = .error e) : catalog.RefusedOn path record names e := by
  -- Each case that fails is one of the refusals, of the name at which the walk stands.
  fun_induction walk catalog path record names with
  | case1 => contradiction
  | case2 record name rest hfield =>
      obtain rfl := Except.error.inj h
      exact .here (.unregistered hfield)
  | case4 record name rest type hfield hmore =>
      obtain rfl := Except.error.inj h
      exact .here (.pastScalar type hfield (by rwa [List.isEmpty_iff] at hmore))
  | case5 record name rest inner hfield hlast =>
      obtain rfl := Except.error.inj h
      exact .here (.atRecord inner hfield (List.isEmpty_iff.mp hlast))
  | case6 record name rest inner hnested hmore ih =>
      cases hwalk : catalog.walk path inner rest with
      | ok found =>
          rw [hwalk] at h
          contradiction
      | error e' =>
          rw [hwalk] at h
          obtain rfl := Except.error.inj h
          exact .through hnested (ih (by rwa [List.isEmpty_iff] at hmore) hwalk)
  | case8 record name rest element link hfield hmore =>
      obtain rfl := Except.error.inj h
      exact .here (.pastCollection element link hfield (by rwa [List.isEmpty_iff] at hmore))
  | _ => contradiction

/-- A name that refuses a path is where the walk fails. -/
theorem Refuses.walk_eq_error {name : String} {e : CompileError}
    (h : catalog.Refuses path record name names e) :
    catalog.walk path record (name :: names) = .error e := by
  cases h with
  | unregistered hfield => rw [walk, hfield]
  | pastScalar type hfield hrest =>
      rw [walk, hfield]
      exact if_neg (by rwa [List.isEmpty_iff])
  | atRecord inner hfield hrest =>
      rw [walk, hfield]
      exact if_pos (List.isEmpty_iff.mpr hrest)
  | pastCollection element link hfield hrest =>
      rw [walk, hfield]
      exact if_neg (by rwa [List.isEmpty_iff])

theorem Leads.walk_eq_error {front rest : List String} {holder : ι} {name : String}
    {e : CompileError} (h : catalog.Leads record front holder name)
    (hrefuses : catalog.Refuses path holder name rest e) :
    catalog.walk path record (front ++ rest) = .error e := by
  induction h with
  | here record name => exact hrefuses.walk_eq_error
  | through hnested hrest ih =>
      rw [List.cons_append, walk_through (List.append_ne_nil_of_left_ne_nil hrest.ne_nil _) hnested,
        ih hrefuses]
      rfl

/-- A path fails with the error of the name that refuses it. -/
theorem resolve_eq_error_iff {e : CompileError} :
    catalog.resolve record path = .error e ↔
      catalog.RefusedOn path record (Text.segments path) e := by
  constructor
  · exact refusedOn_of_walk (Text.segments_ne_nil path)
  · rintro ⟨front, rest, holder, name, hnames, hleads, hrefuses⟩
    rw [resolve, hnames]
    exact hleads.walk_eq_error hrefuses

end Catalog

/-! ## Getters along a path -/

/-- What a path reads of a record: a value or the elements of a collection, or nothing when a nested
record on the way is absent. -/
inductive Accessor where
  | value (get : Record → Option Value)
  | elements (get : Record → Option (List Record))

/-- Reads behind the nested record of a field. -/
def Accessor.behind (name : String) : Accessor → Accessor
  | value get => value fun r => (r.nested? name).bind get
  | elements get => elements fun r => (r.nested? name).bind get

namespace Catalog

variable {ι : Type}

/-- The getters that the schemas have for some names, one behind the other. -/
def accessor? (catalog : Catalog ι) (record : ι) : List String → Option Accessor
  | [] => none
  | name :: rest =>
    match (catalog record).field? name with
    | some (.scalar _) =>
      if rest.isEmpty then some (.value fun r => some (r.value name)) else none
    | some (.nested inner) =>
      if rest.isEmpty then none else (accessor? catalog inner rest).map (Accessor.behind name)
    | some (.collection ..) =>
      if rest.isEmpty then some (.elements fun r => some (r.collection name)) else none
    | none => none

end Catalog

/-- What a record is read for once its names are resolved. -/
def Resolution.accessor {ι : Type} (names : List String) : Resolution ι → Accessor
  | scalar _ => .value (·.through? Record.value names)
  | collection .. => .elements (·.through? Record.collection names)

/-- What is found behind a nested record is read through it. -/
theorem Resolution.accessor_outward {ι : Type} {names : List String} (hnames : names ≠ [])
    (name : String) (found : Resolution ι) :
    found.outward.accessor (name :: names) = (found.accessor names).behind name := by
  cases found <;> simp only [outward, accessor, Accessor.behind, Record.through?_cons hnames]

/-- A walk through the schemas that resolves composes the getters that a record is read by along the
same names; one that fails has no getters to compose. -/
theorem Catalog.accessor?_eq {ι : Type} (catalog : Catalog ι) (path : String) (record : ι)
    (names : List String) :
    catalog.accessor? record names =
      (catalog.walk path record names).toOption.map (Resolution.accessor names) := by
  fun_induction walk catalog path record names with
  | case1 record => rfl
  | case2 record name rest hfield | case4 record name rest type hfield hmore
  | case5 record name rest inner hfield hlast | case8 record name rest element link hfield hmore =>
      rw [accessor?, hfield]
      simp_all [Except.toOption]
  | case3 record name rest type hfield hlast | case7 record name rest element link hfield hlast =>
      obtain rfl := List.isEmpty_iff.mp hlast
      rw [accessor?, hfield]
      rfl
  | case6 record name rest inner hfield hmore ih =>
      have hrest : rest ≠ [] := by rwa [List.isEmpty_iff] at hmore
      rw [accessor?, hfield]
      simp only [if_neg hmore, ih]
      cases catalog.walk path inner rest with
      | error e => rfl
      | ok found => exact congrArg some (Resolution.accessor_outward hrest name found).symm

/-- What a path that resolves to a scalar reads is the value at its end. -/
theorem Catalog.accessor?_of_scalar {ι : Type} {catalog : Catalog ι} {record : ι} {path : String}
    {type : DataType} (h : catalog.resolve record path = .ok (.scalar type)) :
    catalog.accessor? record (Text.segments path) = some (.value (·.value? path)) := by
  rw [accessor?_eq catalog path, ← resolve, h]
  rfl

/-- What a path that resolves to a collection reads is the elements at its end. -/
theorem Catalog.accessor?_of_collection {ι : Type} {catalog : Catalog ι} {record : ι}
    {path : String} {element : ι} {link : Option Link}
    (h : catalog.resolve record path = .ok (.collection element link)) :
    catalog.accessor? record (Text.segments path) = some (.elements (·.elements? path)) := by
  rw [accessor?_eq catalog path, ← resolve, h]
  rfl

/-! ## Fields of criteria -/

namespace Compile

variable {ι : Type} {catalog : Catalog ι} {env : Environment} {record : ι} {path : String}

/-- The field of a test is found under the whole path, and is known by it. -/
theorem scalarField_eq_ok_iff {op : Operator} {right : Option Criterion} {value : Option Value}
    {inner : Option Criterion} {parts : List Criterion} {field : FieldRef} :
    scalarField catalog record (.node op (some path) right value inner parts) = .ok field ↔
      field.path = path ∧ catalog.resolve record path = .ok (.scalar field.type) := by
  constructor
  · intro h
    obtain ⟨hpath, hresolve⟩ := scalarField_eq_ok h
    obtain rfl : path = field.path := Option.some.inj hpath
    exact ⟨rfl, hresolve⟩
  · rintro ⟨rfl, hresolve⟩
    exact bind_eq_ok_iff.mpr ⟨field.path, rfl, bind_eq_ok_iff.mpr ⟨_, hresolve, rfl⟩⟩

/-- The collection of a quantifier is what its path resolves to, and no other. -/
theorem collectionField_eq_ok_iff {element : ι} {link : Option Link} :
    collectionField catalog record path = .ok (element, link) ↔
      catalog.resolve record path = .ok (.collection element link) := by
  constructor
  · exact collectionField_eq_ok
  · exact fun hresolve => bind_eq_ok_iff.mpr ⟨_, hresolve, rfl⟩

/-- The collection of a quantifier is found under the whole path, and its inner criterion is
compiled for the record type of the elements. -/
theorem criterion_any_eq_ok_iff {right : Option Criterion} {value : Option Value}
    {inner : Criterion} {parts : List Criterion} {p : Predicate} :
    criterion catalog env record (.node .any (some path) right value (some inner) parts) = .ok p ↔
      ∃ element link q, catalog.resolve record path = .ok (.collection element link) ∧
        criterion catalog env element inner = .ok q ∧
        p = quantifier (catalog record).name path (catalog element).name link q := by
  rw [criterion]
  constructor
  · intro h
    obtain ⟨name, hname, h⟩ := bind_eq_ok_iff.mp h
    obtain ⟨⟨element, link⟩, hcollection, h⟩ := bind_eq_ok_iff.mp h
    obtain ⟨q, hq, h⟩ := bind_eq_ok_iff.mp h
    obtain rfl : path = name := Except.ok.inj hname
    exact ⟨element, link, q, collectionField_eq_ok hcollection, hq, (Except.ok.inj h).symm⟩
  · rintro ⟨element, link, q, hresolve, hq, rfl⟩
    refine bind_eq_ok_iff.mpr ⟨path, rfl, bind_eq_ok_iff.mpr ⟨(element, link), ?_, ?_⟩⟩
    · exact collectionField_eq_ok_iff.mpr hresolve
    · exact bind_eq_ok_iff.mpr ⟨q, hq, rfl⟩

end Compile

/-- A path resolves to the scalar or the collection that its names lead to through nested records,
a collection without its link unless the path is a single name, and fails with the error of the name
that refuses it. A record is read along the path, to the field of the name that was found, and not
at all when a nested record is absent. What is compiled for the path names it as a whole. -/
theorem Catalog.resolve_follows_path {ι : Type} (catalog : Catalog ι) (record : ι)
    (path : String) :
    (∀ type, catalog.resolve record path = .ok (.scalar type) ↔
      ∃ holder name, catalog.EndsAt record path holder name ∧
        (catalog holder).field? name = some (.scalar type)) ∧
    (∀ element link, catalog.resolve record path = .ok (.collection element link) ↔
      ∃ holder name keys, catalog.EndsAt record path holder name ∧
        (catalog holder).field? name = some (.collection element keys) ∧
        link = if (Text.segments path).length = 1 then keys else none) ∧
    (∀ e, catalog.resolve record path = .error e ↔
      catalog.RefusedOn path record (Text.segments path) e) ∧
    (∀ stop name, catalog.EndsAt record path stop name → ∀ r : Record,
      (r.value? path = none ↔ r.LacksRecordOn path) ∧
      (∀ v, r.value? path = some v ↔ ∃ holder, r.EndsAt path holder name ∧ holder.value name = v) ∧
      (r.elements? path = none ↔ r.LacksRecordOn path) ∧
      ∀ elements, r.elements? path = some elements ↔
        ∃ holder, r.EndsAt path holder name ∧ holder.collection name = elements) ∧
    (∀ op right value inner parts field,
      Compile.scalarField catalog record (.node op (some path) right value inner parts) =
          .ok field ↔
        field.path = path ∧ catalog.resolve record path = .ok (.scalar field.type)) ∧
    ∀ env right value inner parts p,
      Compile.criterion catalog env record (.node .any (some path) right value (some inner) parts) =
          .ok p ↔
        ∃ element link q, catalog.resolve record path = .ok (.collection element link) ∧
          Compile.criterion catalog env element inner = .ok q ∧
          p = Compile.quantifier (catalog record).name path (catalog element).name link q := by
  refine ⟨fun type => resolve_eq_scalar_iff, fun element link => resolve_eq_collection_iff,
    fun e => resolve_eq_error_iff, ?_, ?_, ?_⟩
  · intro stop name hends r
    -- The walk through the record ends at the name that the walk through the schemas found.
    have hsame (q : Record → String → Prop) :
        (∃ holder last, r.EndsAt path holder last ∧ q holder last) ↔
          ∃ holder, r.EndsAt path holder name ∧ q holder name := by
      constructor
      · rintro ⟨holder, last, hleads, hq⟩
        obtain rfl := hends.same_name hleads
        exact ⟨holder, hleads, hq⟩
      · rintro ⟨holder, hleads, hq⟩
        exact ⟨holder, name, hleads, hq⟩
    refine ⟨Record.value?_eq_none_iff, fun v => ?_, Record.elements?_eq_none_iff,
      fun elements => ?_⟩
    · rw [Record.value?_eq_some_iff, hsame fun holder last => holder.value last = v]
    · rw [Record.elements?_eq_some_iff, hsame fun holder last => holder.collection last = elements]
  · exact fun op right value inner parts field => Compile.scalarField_eq_ok_iff
  · exact fun env right value inner parts p => Compile.criterion_any_eq_ok_iff

/-- Grace has an address in Bergen, and Linus has none to read a city from. -/
theorem cities_of_grace_and_linus :
    Sample.catalog.EndsAt .customer "address.city" .address "city" ∧
      Sample.catalog.resolve .customer "address.city" = .ok (.scalar .string) ∧
      Sample.grace.toRecord.value? "address.city" = some (.string "Bergen") ∧
      Sample.linus.toRecord.value? "address.city" = none := by
  have hends : Sample.catalog.EndsAt .customer "address.city" .address "city" :=
    .through rfl (.here _ _)
  obtain ⟨hscalar, -, -, hread, -⟩ :=
    Catalog.resolve_follows_path Sample.catalog .customer "address.city"
  refine ⟨hends, (hscalar _).mpr ⟨_, _, hends, rfl⟩, ?_, ?_⟩
  · exact ((hread _ _ hends _).2.1 _).mpr ⟨_, .through rfl (.here _ _), rfl⟩
  · exact (hread _ _ hends _).1.mpr ⟨["address"], ["city"], _, "address", rfl, by decide,
      .here _ _, rfl⟩

/-- The kids of a nested record have no link; a name behind kids is refused where the kids are. -/
example :
    Sample.catalog.resolve .wide "sub.sub.kids" = .ok (.collection .wide none) ∧
      Sample.catalog.resolve .wide "sub.kids.i" =
        .error (.fieldKindMismatch "sub.kids.i" .record .collection) :=
  ⟨rfl, rfl⟩

end Selection
