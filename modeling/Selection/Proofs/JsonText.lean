import Selection.Proofs.Json

/-! # The text of a JSON value

The text of a value is taken apart in front of whatever may follow it, into a source that denotes
the value with its objects in the order of their keys, as long as the numbers in it are recovered.
The source nests as deep as the value.
-/

namespace Selection.Json

/-- A property of values holds when it holds of the scalars and passes from the values in a
container to the container. -/
theorem induction {motive : Json → Prop} (null : motive .null) (bool : ∀ b, motive (.bool b))
    (number : ∀ n, motive (.number n)) (string : ∀ s, motive (.string s))
    (array : ∀ items, (∀ item ∈ items, motive item) → motive (.array items))
    (object : ∀ members, (∀ m ∈ members, motive m.2) → motive (.object members)) (j : Json) :
    motive j := by
  refine @Json.rec motive (fun items => ∀ item ∈ items, motive item)
    (fun members => ∀ m ∈ members, motive m.2) (fun m => motive m.2) null bool number string array
    object nofun ?_ nofun ?_ (fun _ _ h => h) j
  · exact fun _ _ hitem hrest => List.forall_mem_cons.mpr ⟨hitem, hrest⟩
  · exact fun _ _ hmember hrest => List.forall_mem_cons.mpr ⟨hmember, hrest⟩

/-! ## Nesting and order -/

mutual

/-- The values inside a value, itself first. -/
def within : Json → List Json
  | array items => array items :: withinItems items
  | object members => object members :: withinMembers members
  | j => [j]

def withinItems : List Json → List Json
  | [] => []
  | item :: rest => item.within ++ withinItems rest

def withinMembers : List (String × Json) → List Json
  | [] => []
  | (_, value) :: rest => value.within ++ withinMembers rest

end

mutual

/-- The number of containers that are nested in each other. -/
def depth : Json → Nat
  | array items => itemsDepth items + 1
  | object members => membersDepth members + 1
  | _ => 0

def itemsDepth : List Json → Nat
  | [] => 0
  | item :: rest => max item.depth (itemsDepth rest)

def membersDepth : List (String × Json) → Nat
  | [] => 0
  | (_, value) :: rest => max value.depth (membersDepth rest)

end

mutual

/-- The value with the members of its objects in the order of their keys. -/
def sorted : Json → Json
  | array items => .array (sortedItems items)
  | object members => .ofMembers (sortedMembers members)
  | j => j

def sortedItems : List Json → List Json
  | [] => []
  | item :: rest => item.sorted :: sortedItems rest

def sortedMembers : List (String × Json) → List (String × Json)
  | [] => []
  | (key, value) :: rest => (key, value.sorted) :: sortedMembers rest

end

theorem mem_withinItems {j : Json} {items : List Json} :
    j ∈ withinItems items ↔ ∃ item ∈ items, j ∈ item.within := by
  induction items with
  | nil => simp [withinItems]
  | cons item items ih => simp [withinItems, ih]

theorem mem_withinMembers {j : Json} {members : List (String × Json)} :
    j ∈ withinMembers members ↔ ∃ m ∈ members, j ∈ m.2.within := by
  induction members with
  | nil => simp [withinMembers]
  | cons m members ih => simp [withinMembers, ih]

theorem mem_within_array {j : Json} {items : List Json} :
    j ∈ (array items).within ↔ j = array items ∨ ∃ item ∈ items, j ∈ item.within := by
  rw [within, List.mem_cons, mem_withinItems]

/-- Within an object are itself and what is within its members. -/
theorem mem_within_object {j : Json} {members : List (String × Json)} :
    j ∈ (object members).within ↔ j = object members ∨ ∃ m ∈ members, j ∈ m.2.within := by
  rw [within, List.mem_cons, mem_withinMembers]

/-! ## Texts of containers -/

/-- The text of an array behind its first item. -/
def itemsTail : List Json → List Char
  | [] => [']']
  | item :: rest => ',' :: (item.text.toList ++ itemsTail rest)

/-- The text of a member. -/
def memberText (m : String × Json) : List Char :=
  (quote m.1).toList ++ ':' :: m.2.text.toList

/-- The text of an object behind its first member. -/
def membersTail : List (String × Json) → List Char
  | [] => ['\x7d']
  | m :: rest => ',' :: (memberText m ++ membersTail rest)

theorem toList_text_array_cons (item : Json) (items : List Json) :
    (array (item :: items)).text.toList = '[' :: (item.text.toList ++ itemsTail items) := by
  have htail : (",".intercalate (itemTexts (item :: items))).toList ++ [']'] =
      item.text.toList ++ itemsTail items := by
    induction items generalizing item with
    | nil => simp [itemTexts, itemsTail]
    | cons next items ih =>
        rw [itemTexts, itemTexts, String.intercalate_cons_cons, ← itemTexts, itemsTail,
          String.toList_append, String.toList_append, List.append_assoc, ih]
        simp
  simp [text, ← htail]

theorem toList_text_object_cons (m : String × Json) (members : List (String × Json)) :
    (object (m :: members)).text.toList = '\x7b' :: (memberText m ++ membersTail members) := by
  have htext (m : String × Json) : (quote m.1 ++ ":" ++ m.2.text).toList = memberText m := by
    simp [memberText]
  have htail : (",".intercalate (memberTexts (m :: members))).toList ++ ['\x7d'] =
      memberText m ++ membersTail members := by
    induction members generalizing m with
    | nil => simp [memberTexts, membersTail, ← htext]
    | cons next members ih =>
        rw [memberTexts, memberTexts, String.intercalate_cons_cons, ← memberTexts, membersTail,
          String.toList_append, String.toList_append, List.append_assoc, ih, htext]
        simp
  simp [text, ← htail]

/-! ## Scanning -/

/-- Nothing is skipped before a character that is no space. -/
theorem run_spaces {c : Char} (h : Source.isSpace c = false) (cs : List Char) :
    Source.spaces.run (c :: cs) = some ((), c :: cs) := by
  change some ((), (c :: cs).dropWhile Source.isSpace) = _
  rw [List.dropWhile_cons, h, if_neg Bool.false_ne_true]

/-- The characters that a value may begin with when it is no number. -/
def openers : List Char :=
  ['n', 't', 'f', '"', '[', '\x7b']

/-- What begins like a number is scanned as one. -/
theorem run_scan_number {c : Char} (hspace : Source.isSpace c = false) (hc : c ∉ openers)
    (fuel : Nat) (cs : List Char) :
    (Source.scan (fuel + 1)).run (c :: cs) =
      (Source.numeral.run (c :: cs)).map fun (n, rest) => (.number n, rest) := by
  simp only [openers, List.mem_cons, List.not_mem_nil, or_false, not_or] at hc
  rw [Source.scan, StateT.run_bind, run_spaces hspace]
  simp [Scan.run_peek, hc]

/-- The text of a value is taken off in front of what may follow it, as a source of the value. -/
structure Taken (j : Json) : Prop where
  begins : ∃ c cs, j.text.toList = c :: cs ∧ Source.isSpace c = false ∧ c ≠ ']'
  run : ∀ {rest : List Char}, Follows rest → ∀ {fuel : Nat}, j.text.toList.length < fuel →
    ∃ source, (Source.scan fuel).run (j.text.toList ++ rest) = some (source, rest) ∧
      ∀ depth, j.depth ≤ depth → source.value? depth = some j.sorted

theorem taken_null : Taken .null where
  begins := ⟨'n', _, rfl, rfl, by decide⟩
  run := by
    intro rest _ fuel hfuel
    obtain ⟨fuel, rfl⟩ : ∃ k, fuel = k + 1 := ⟨fuel - 1, by omega⟩
    exact ⟨.null, rfl, fun _ _ => rfl⟩

theorem taken_bool (b : Bool) : Taken (.bool b) where
  begins := by cases b <;> exact ⟨_, _, rfl, rfl, by decide⟩
  run := by
    intro rest _ fuel hfuel
    obtain ⟨fuel, rfl⟩ : ∃ k, fuel = k + 1 := ⟨fuel - 1, by omega⟩
    refine ⟨.bool b, ?_, fun _ _ => rfl⟩
    cases b <;> rfl

/-- A string is read back from its text as its characters. -/
theorem run_quoted (s : String) (rest : List Char) :
    Source.quoted.run ((quote s).toList ++ rest) = some (s.toList.map Part.ofChar, rest) := by
  rw [toList_quote, List.cons_append, List.append_assoc]
  exact stringBody_quoted s.toList rest

theorem taken_string (s : String) : Taken (.string s) where
  begins := ⟨'"', _, toList_quote s, rfl, by decide⟩
  run := by
    intro rest _ fuel hfuel
    obtain ⟨fuel, rfl⟩ : ∃ k, fuel = k + 1 := ⟨fuel - 1, by omega⟩
    have hquoted := run_quoted s rest
    refine ⟨.string (s.toList.map Part.ofChar), ?_, fun depth _ => ?_⟩
    · rw [text]
      rw [toList_quote, List.cons_append] at hquoted ⊢
      rw [Source.scan, StateT.run_bind, run_spaces rfl]
      simpa [Scan.run_peek] using hquoted
    · rw [Source.value?, string?_ofChar, Option.map_some, String.ofList_toList, sorted]
      all_goals nofun

theorem exists_cons_of_run_numeral {cs rest : List Char} {n : Numeral}
    (h : Source.numeral.run cs = some (n, rest)) :
    ∃ c cs', cs = c :: cs' ∧ (c = '-' ∨ c.isDigit = true) := by
  cases cs with
  | nil => contradiction
  | cons c cs =>
      refine ⟨c, cs, rfl, ?_⟩
      by_contra hc
      obtain ⟨hminus, hdigit⟩ := not_or.mp hc
      have hdigits : Scan.digits.run (c :: cs) = none := by
        simp [Scan.digits, StateT.run, hdigit]
      have hwhole : Source.wholePart.run (c :: cs) = none := by
        have hzero : c ≠ '0' := by
          rintro rfl
          exact hdigit rfl
        simp [Source.wholePart, hzero, hdigits]
      simp [Source.numeral, hminus, hwhole] at h

theorem taken_number {n : Number} (h : n.Recovered) : Taken (.number n) := by
  obtain ⟨numeral, hrun, hnumber⟩ := h
  obtain ⟨c, cs, htext, hc⟩ := exists_cons_of_run_numeral hrun
  have hspace : Source.isSpace c = false := by
    rcases hc with rfl | hc
    · rfl
    · simp [Source.isSpace, Text.beq_eq_false_of_isDigit hc]
  -- A numeral starts with a digit or a minus, and so with nothing that opens another kind of value.
  have hopener : ∀ d ∈ ']' :: openers, c ≠ d := by
    rintro d hd rfl
    rcases hc with rfl | hc
    · contradiction
    · have hnone : ∀ d ∈ ']' :: openers, d.isDigit = false := by decide
      rw [hnone c hd] at hc
      contradiction
  refine ⟨⟨c, cs, htext, hspace, hopener _ List.mem_cons_self⟩, ?_⟩
  intro rest hrest fuel hfuel
  obtain ⟨fuel, rfl⟩ : ∃ k, fuel = k + 1 := ⟨fuel - 1, by omega⟩
  refine ⟨.number numeral, ?_, fun depth _ => ?_⟩
  · have hrun := (stopsBefore_numeral hrest).run_append _ _ _ hrun
    rw [text, htext] at *
    rw [List.cons_append] at hrun ⊢
    rw [run_scan_number hspace (fun h => hopener c (List.mem_cons_of_mem _ h) rfl), hrun]
    rfl
  · rw [Source.value?, hnumber, sorted]
    · rfl
    all_goals nofun

/-! ### Containers -/

theorem follows_itemsTail (items : List Json) (rest : List Char) :
    Follows (itemsTail items ++ rest) := by
  cases items <;> exact follows_cons (by decide) _

theorem follows_membersTail (members : List (String × Json)) (rest : List Char) :
    Follows (membersTail members ++ rest) := by
  cases members <;> exact follows_cons (by decide) _

/-- The items of an array are taken off, with the closing bracket. -/
theorem run_scanItems {item : Json} {items : List Json} (h : ∀ j ∈ item :: items, j.Taken)
    {fuel : Nat} (hfuel : (item.text.toList ++ itemsTail items).length < fuel) (rest : List Char) :
    ∃ sources,
      (Source.scanItems fuel).run (item.text.toList ++ (itemsTail items ++ rest)) =
          some (sources, rest) ∧
        ∀ depth, itemsDepth (item :: items) ≤ depth →
          Source.itemValues? depth sources = some (sortedItems (item :: items)) := by
  induction items generalizing item fuel with
  | nil =>
      obtain ⟨fuel, rfl⟩ : ∃ k, fuel = k + 1 := ⟨fuel - 1, by omega⟩
      simp only [itemsTail, List.length_append, List.length_singleton] at hfuel
      obtain ⟨source, hrun, hvalue⟩ :=
        (h item List.mem_cons_self).run (follows_itemsTail [] rest) (by omega : _ < fuel)
      refine ⟨[source], ?_, fun depth hdepth => ?_⟩
      · rw [Source.scanItems, StateT.run_bind, hrun]
        rfl
      · rw [Source.itemValues?, hvalue depth (le_trans (le_max_left _ _) hdepth)]
        rfl
  | cons next items ih =>
      obtain ⟨fuel, rfl⟩ : ∃ k, fuel = k + 1 := ⟨fuel - 1, by omega⟩
      simp only [itemsTail, List.length_append, List.length_cons] at hfuel
      obtain ⟨source, hrun, hvalue⟩ :=
        (h item List.mem_cons_self).run (follows_itemsTail (next :: items) rest)
          (by omega : _ < fuel)
      -- The fuel that is left is more than the text that is left, and a comma goes with it.
      have hlength : (next.text.toList ++ itemsTail items).length < fuel := by
        rw [List.length_append]
        omega
      obtain ⟨sources, hrunAll, hvalues⟩ :=
        ih (fun j hj => h j (List.mem_cons_of_mem _ hj)) hlength
      refine ⟨source :: sources, ?_, fun depth hdepth => ?_⟩
      · rw [itemsTail, List.cons_append, List.append_assoc] at hrun ⊢
        rw [Source.scanItems, StateT.run_bind, hrun]
        simp [run_spaces, Source.isSpace, hrunAll]
      · rw [Source.itemValues?, hvalue depth (le_trans (le_max_left _ _) hdepth),
          hvalues depth (le_trans (le_max_right _ _) hdepth)]
        rfl

/-- A member of a source is one of a value: they have one key, and the source denotes the value when
it is read to a depth. -/
def SourceOf (depth : Nat) (source : List Part × Source) (m : String × Json) : Prop :=
  Part.string? source.1 = some m.1.toList ∧ source.2.value? depth = some m.2.sorted

/-- Sources of members give the members, sorted and with the last of equal keys. -/
theorem memberValues?_eq_some {depth : Nat} {sources : List (List Part × Source)}
    {members : List (String × Json)} (h : List.Forall₂ (SourceOf depth) sources members) :
    Source.memberValues? depth sources = some (sortedMembers members) := by
  induction h with
  | nil => rfl
  | @cons source m _ _ hhead _ ih =>
      obtain ⟨parts, source⟩ := source
      obtain ⟨key, value⟩ := m
      obtain ⟨hkey, hvalue⟩ := hhead
      simp only at hkey hvalue
      simp [Source.memberValues?, hkey, hvalue, ih, sortedMembers]

/-- Takes a member of an object. -/
def Source.scanMember (fuel : Nat) : Scan (List Part × Source) := do
  let key ← Source.quoted
  Source.token ':'
  let item ← Source.scan fuel
  return (key, item)

theorem Source.scanMembers_succ (fuel : Nat) :
    Source.scanMembers (fuel + 1) = (do
      let member ← Source.scanMember fuel
      Source.spaces
      if (← Scan.peek) == some ',' then
        Scan.char ','
        return member :: (← Source.scanMembers fuel)
      Scan.char '\x7d'
      return [member]) := by
  simp [Source.scanMembers, Source.scanMember]

theorem run_scanMember {m : String × Json} (h : m.2.Taken) {rest : List Char} (hrest : Follows rest)
    {fuel : Nat} (hfuel : (memberText m).length ≤ fuel) :
    ∃ source, (Source.scanMember fuel).run (memberText m ++ rest) = some (source, rest) ∧
      ∀ depth, m.2.depth ≤ depth → SourceOf depth source m := by
  obtain ⟨key, value⟩ := m
  simp only [memberText, List.length_append, List.length_cons] at hfuel
  obtain ⟨source, hrun, hvalue⟩ := h.run hrest (by omega : value.text.toList.length < fuel)
  refine ⟨(key.toList.map Part.ofChar, source), ?_, fun depth hdepth =>
    ⟨string?_ofChar _, hvalue depth hdepth⟩⟩
  rw [memberText, List.append_assoc, Source.scanMember, StateT.run_bind, run_quoted]
  simp [Source.token, run_spaces, Source.isSpace, hrun]

/-- The members of an object are taken off, with the closing brace. -/
theorem run_scanMembers {m : String × Json} {members : List (String × Json)}
    (h : ∀ e ∈ m :: members, e.2.Taken) {fuel : Nat}
    (hfuel : (memberText m ++ membersTail members).length < fuel) (rest : List Char) :
    ∃ sources,
      (Source.scanMembers fuel).run (memberText m ++ (membersTail members ++ rest)) =
          some (sources, rest) ∧
        ∀ depth, membersDepth (m :: members) ≤ depth →
          List.Forall₂ (SourceOf depth) sources (m :: members) := by
  induction members generalizing m fuel with
  | nil =>
      -- Each member takes one step of the fuel and at least one character of the text that bounds
      -- it.
      obtain ⟨fuel, rfl⟩ : ∃ k, fuel = k + 1 := ⟨fuel - 1, by omega⟩
      simp only [membersTail, List.length_append, List.length_singleton] at hfuel
      obtain ⟨source, hrun, hsource⟩ :=
        run_scanMember (h m List.mem_cons_self) (follows_membersTail [] rest) (by omega : _ ≤ fuel)
      refine ⟨[source], ?_, fun depth hdepth =>
        .cons (hsource depth (le_trans (le_max_left _ _) hdepth)) .nil⟩
      rw [Source.scanMembers_succ, StateT.run_bind, hrun]
      rfl
  | cons next members ih =>
      obtain ⟨fuel, rfl⟩ : ∃ k, fuel = k + 1 := ⟨fuel - 1, by omega⟩
      simp only [membersTail, List.length_append, List.length_cons] at hfuel
      obtain ⟨source, hrun, hsource⟩ :=
        run_scanMember (h m List.mem_cons_self) (follows_membersTail (next :: members) rest)
          (by omega : _ ≤ fuel)
      have hlength : (memberText next ++ membersTail members).length < fuel := by
        rw [List.length_append]
        omega
      obtain ⟨sources, hrunAll, hsources⟩ :=
        ih (fun e he => h e (List.mem_cons_of_mem _ he)) hlength
      refine ⟨source :: sources, ?_, fun depth hdepth =>
        .cons (hsource depth (le_trans (le_max_left _ _) hdepth))
          (hsources depth (le_trans (le_max_right _ _) hdepth))⟩
      rw [membersTail, List.cons_append, List.append_assoc] at hrun ⊢
      rw [Source.scanMembers_succ, StateT.run_bind, hrun]
      simp [run_spaces, Source.isSpace, hrunAll]

theorem taken_array {items : List Json} (h : ∀ item ∈ items, item.Taken) :
    Taken (.array items) := by
  cases items with
  | nil =>
      refine ⟨⟨'[', [']'], rfl, rfl, by decide⟩, fun {rest} _ {fuel} hfuel => ?_⟩
      obtain ⟨fuel, rfl⟩ : ∃ k, fuel = k + 1 := ⟨fuel - 1, by omega⟩
      refine ⟨.array [], rfl, fun depth hdepth => ?_⟩
      obtain ⟨depth, rfl⟩ : ∃ k, depth = k + 1 := ⟨depth - 1, by rw [Json.depth] at hdepth; omega⟩
      rfl
  | cons item items =>
      have htext := toList_text_array_cons item items
      refine ⟨⟨'[', _, htext, rfl, by decide⟩, fun {rest} _ {fuel} hfuel => ?_⟩
      obtain ⟨fuel, rfl⟩ : ∃ k, fuel = k + 1 := ⟨fuel - 1, by omega⟩
      rw [htext] at hfuel ⊢
      obtain ⟨c, cs, hitem, hspace, hbracket⟩ := (h item List.mem_cons_self).begins
      obtain ⟨sources, hrun, hvalues⟩ := run_scanItems h (Nat.lt_of_succ_lt_succ hfuel) rest
      refine ⟨.array sources, ?_, fun depth hdepth => ?_⟩
      · rw [List.cons_append, List.append_assoc]
        rw [hitem, List.cons_append] at hrun ⊢
        rw [Source.scan, StateT.run_bind, run_spaces rfl]
        simp [Scan.run_peek, run_spaces hspace, hbracket, hrun]
      · rw [Json.depth] at hdepth
        obtain ⟨depth, rfl⟩ : ∃ k, depth = k + 1 := ⟨depth - 1, by omega⟩
        rw [Source.value?, hvalues depth (Nat.le_of_succ_le_succ hdepth), sorted]
        rfl

/-- The text of an object is taken off as a source of its members in their order. -/
theorem run_scan_object {members : List (String × Json)} (h : ∀ m ∈ members, m.2.Taken) {fuel : Nat}
    (hfuel : (object members).text.toList.length < fuel) (rest : List Char) :
    ∃ sources,
      (Source.scan fuel).run ((object members).text.toList ++ rest) =
          some (.object sources, rest) ∧
        ∀ depth, membersDepth members ≤ depth →
          List.Forall₂ (SourceOf depth) sources members := by
  obtain ⟨fuel, rfl⟩ : ∃ k, fuel = k + 1 := ⟨fuel - 1, by omega⟩
  cases members with
  | nil => exact ⟨[], rfl, fun _ _ => .nil⟩
  | cons m members =>
      rw [toList_text_object_cons] at hfuel ⊢
      obtain ⟨sources, hrun, hsources⟩ := run_scanMembers h (Nat.lt_of_succ_lt_succ hfuel) rest
      refine ⟨sources, ?_, hsources⟩
      rw [List.cons_append, List.append_assoc]
      rw [memberText, toList_quote, List.cons_append, List.cons_append] at hrun ⊢
      rw [Source.scan, StateT.run_bind, run_spaces rfl]
      simpa [Scan.run_peek, run_spaces, Source.isSpace] using hrun

/-- The text of an object is taken back when those of its members are. -/
theorem taken_object {members : List (String × Json)} (h : ∀ m ∈ members, m.2.Taken) :
    Taken (.object members) where
  begins := by
    cases members with
    | nil => exact ⟨'\x7b', ['\x7d'], rfl, rfl, by decide⟩
    | cons m members => exact ⟨'\x7b', _, toList_text_object_cons m members, rfl, by decide⟩
  run := by
    intro rest _ fuel hfuel
    obtain ⟨sources, hrun, hsources⟩ := run_scan_object h hfuel rest
    refine ⟨.object sources, hrun, fun depth hdepth => ?_⟩
    rw [Json.depth] at hdepth
    obtain ⟨depth, rfl⟩ : ∃ k, depth = k + 1 := ⟨depth - 1, by omega⟩
    rw [Source.value?, memberValues?_eq_some (hsources depth (Nat.le_of_succ_le_succ hdepth)),
      sorted]
    rfl

/-- The text of a value is taken apart when the numbers in it are recovered. -/
theorem taken {j : Json} (h : ∀ n, number n ∈ j.within → n.Recovered) : j.Taken := by
  induction j using induction with
  | null => exact taken_null
  | bool b => exact taken_bool b
  | number n => exact taken_number (h n List.mem_cons_self)
  | string s => exact taken_string s
  | array items ih =>
      apply taken_array
      intro item hitem
      exact ih item hitem fun n hn => h n (mem_within_array.mpr (.inr ⟨item, hitem, hn⟩))
  | object members ih =>
      apply taken_object
      intro m hm
      exact ih m hm fun n hn => h n (mem_within_object.mpr (.inr ⟨m, hm, hn⟩))

/-! ## Reading -/

/-- A text that is scanned to its end is read. -/
theorem read?_eq_some {cs : List Char} {source : Source}
    (h : (Source.scan (cs.length + 1)).run cs = some (source, [])) :
    Source.read? cs = some source := by
  apply Scan.whole?_eq_some
  rw [StateT.run_bind, h]
  rfl

/-- The text of an object is read as a source of its members in their order. -/
theorem read?_text_object {members : List (String × Json)}
    (hnumbers : ∀ n, number n ∈ (object members).within → n.Recovered) :
    ∃ sources, Source.read? (object members).text.toList = some (.object sources) ∧
      ∀ depth, membersDepth members ≤ depth →
        List.Forall₂ (SourceOf depth) sources members := by
  have htaken : ∀ m ∈ members, m.2.Taken := fun m hm =>
    taken fun n hn => hnumbers n (mem_within_object.mpr (.inr ⟨m, hm, hn⟩))
  obtain ⟨sources, hrun, hsources⟩ := run_scan_object htaken (Nat.lt_succ_self _) []
  rw [List.append_nil] at hrun
  exact ⟨sources, read?_eq_some hrun, hsources⟩

/-- A text that is read is a source with nothing but blanks behind it. -/
theorem run_of_read? {cs : List Char} {source : Source} (h : Source.read? cs = some source) :
    ∃ blanks, (Source.scan (cs.length + 1)).run cs = some (source, blanks) ∧
      blanks.dropWhile Source.isSpace = [] := by
  rw [Source.read?, Scan.whole?] at h
  split at h
  next a hrun =>
    obtain rfl := Option.some.inj h
    obtain ⟨source, blanks, hsource, hrun⟩ := Scan.run_bind_eq_some hrun
    obtain ⟨⟨⟩, rest, hblanks, hrun⟩ := Scan.run_bind_eq_some hrun
    obtain ⟨rfl, rfl⟩ := Prod.mk.inj (Option.some.inj hrun)
    exact ⟨blanks, hsource, (Prod.mk.inj (Option.some.inj hblanks)).2⟩
  next => contradiction

theorem not_isSpace_of_among {cs : List Char} (h : Text.Among Binary64.marks cs) :
    ∀ c ∈ cs, Source.isSpace c = false := by
  have hmarks : ∀ c ∈ Binary64.marks, Source.isSpace c = false := by decide
  intro c hc
  rcases h c hc with hdigit | hmark
  · simp [Source.isSpace, Text.beq_eq_false_of_isDigit hdigit]
  · exact hmarks c hmark

theorem not_mem_openers_of_among {c : Char} {cs : List Char}
    (h : Text.Among Binary64.marks (c :: cs)) : c ∉ openers := by
  have hmarks : ∀ d ∈ openers, d.isDigit = false ∧ d ∉ Binary64.marks := by decide
  intro hc
  obtain ⟨hdigit, hmark⟩ := hmarks c hc
  exact h.not_mem hdigit hmark List.mem_cons_self

/-- What is read of a text in the characters of a float is one numeral, which is all of it. -/
theorem numeral_of_read? {cs : List Char} {source : Source} (hamong : Text.Among Binary64.marks cs)
    (h : Source.read? cs = some source) :
    ∃ numeral, Source.numeral.run cs = some (numeral, []) ∧ source = .number numeral := by
  obtain ⟨blanks, hrun, hblanks⟩ := run_of_read? h
  have hspace := not_isSpace_of_among hamong
  cases cs with
  | nil => contradiction
  | cons c cs =>
      rw [List.length_cons,
        run_scan_number (hspace c List.mem_cons_self) (not_mem_openers_of_among hamong)] at hrun
      obtain ⟨⟨numeral, rest⟩, hnumeral, heq⟩ := Option.map_eq_some_iff.mp hrun
      obtain ⟨rfl, rfl⟩ := Prod.mk.inj heq
      -- Only blanks can follow, and there are none in the text.
      have hnil : rest = [] := by
        by_contra hne
        obtain ⟨d, rest, rfl⟩ := List.exists_cons_of_ne_nil hne
        have hend := (stopsBefore_numeral follows_nil).leavesEnd _ _ _ hnumeral
        have hd := hend.subset List.mem_cons_self
        rw [List.dropWhile_cons, hspace d hd, if_neg Bool.false_ne_true] at hblanks
        contradiction
      exact ⟨numeral, hnil ▸ hnumeral, rfl⟩

/-- A float that is read back from its text is recovered from it. -/
theorem recovered_float {x : Binary64}
    (h : ofText? (number (.float x)).text = some (number (.float x))) :
    (Number.float x).Recovered := by
  have htext : (number (.float x)).text = x.jsonText?.getD "null" := rfl
  cases hjson : x.jsonText? with
  | none =>
      have hnull : ofText? "null" = some .null := rfl
      rw [htext, hjson, Option.getD_none, hnull] at h
      exact absurd (Option.some.inj h) nofun
  | some s =>
      rw [htext, hjson, Option.getD_some] at h
      obtain ⟨source, hread, hvalue⟩ := Option.bind_eq_some_iff.mp h
      obtain ⟨numeral, hnumeral, rfl⟩ := numeral_of_read? (Binary64.among_jsonText hjson) hread
      rw [Number.Recovered, Number.text, hjson, Option.getD_some]
      refine ⟨numeral, hnumeral, ?_⟩
      obtain ⟨n, hn, hfloat⟩ := Option.map_eq_some_iff.mp hvalue
      rw [hn, Json.number.inj hfloat]

end Selection.Json
