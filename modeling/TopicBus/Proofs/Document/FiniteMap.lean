import Mathlib.Data.Finmap
import TopicBus.Proofs.Document.Fields
import TopicBus.Proofs.Document.Made
import TopicBus.Proofs.Text.Order

/-!
Documents as finite maps. The contents of a document are a finite map from names to values, and
every change of the document is a change of this map (`contents_edit`), whatever changes came before
(`contents_edits`). The readers answer for the map, and the map determines the document
(`edits_as_map`).
-/

namespace TopicBus.Document

/-- A change of a document. -/
inductive Edit where
  | setString (name value : String)
  | setInt32 (name : String) (value : Int32)
  | setDouble (name : String) (value : Double)
  | setDocument (name : String) (value : Document)
  | appendString (name value : String)
  | appendDocument (name : String) (value : Document)
  | remove (name : String)
  deriving Repr

/-- The name that a change is for. -/
def Edit.name : Edit → String
  | .setString name _ | .setInt32 name _ | .setDouble name _ | .setDocument name _
  | .appendString name _ | .appendDocument name _ | .remove name => name

/-- What a change gives. -/
inductive Answer where
  | done
  | refused (why : Fault)
  /-- Whether there was anything to remove. -/
  | removed (found : Bool)
  deriving DecidableEq, Repr

/-- A change that may be refused leaves the document then. -/
def settle (d : Document) : Except Fault Document → Document × Answer
  | .ok e => (e, .done)
  | .error why => (d, .refused why)

def edit (d : Document) : Edit → Document × Answer
  | .setString name value => (d.setString name value, .done)
  | .setInt32 name value => (d.setInt32 name value, .done)
  | .setDouble name value => (d.setDouble name value, .done)
  | .setDocument name value => (d.setDocument name value, .done)
  | .appendString name value => d.settle (d.appendString name value)
  | .appendDocument name value => d.settle (d.appendDocument name value)
  | .remove name => (d.remove name, .removed (d.contains name))

/-- One change after the other, with what each gives. -/
def Edit.run {σ : Type} (change : σ → Edit → σ × Answer) (s : σ) : List Edit → σ × List Answer
  | [] => (s, [])
  | x :: xs =>
    let next := run change (change s x).1 xs
    (next.1, (change s x).2 :: next.2)

def edits (d : Document) (xs : List Edit) : Document × List Answer := Edit.run edit d xs

/-! ## The map -/

abbrev FieldMap := Finmap fun _ : String => Json

namespace FieldMap

/-- One more item at the end of an array, or the first one of a new array. -/
def append (m : FieldMap) (name : String) (item : Json) : FieldMap × Answer :=
  match m.lookup name with
  | none => (m.insert name (.array [item]), .done)
  | some (.array items) => (m.insert name (.array (items ++ [item])), .done)
  | some other => (m, .refused (.invalidArgument (.notAnArray name other.kind)))

def edit (m : FieldMap) : Edit → FieldMap × Answer
  | .setString name value => (m.insert name (.text value), .done)
  | .setInt32 name value => (m.insert name (.integer value.toInt), .done)
  | .setDouble name value =>
    (m.insert name (if value.isFinite then .double value else .null), .done)
  | .setDocument name value => (m.insert name (.object value.fields), .done)
  | .appendString name value => m.append name (.text value)
  | .appendDocument name value => m.append name (.object value.fields)
  | .remove name => (m.erase name, .removed (m.lookup name).isSome)

def edits (m : FieldMap) (xs : List Edit) : FieldMap × List Answer := Edit.run edit m xs

end FieldMap

/-- What a document holds, regardless of how it is kept. -/
def contents (d : Document) : FieldMap :=
  (d.fields.map fun f => (⟨f.1, f.2⟩ : (_ : String) × Json)).toFinmap

variable {d e : Document} {name : String}

@[simp]
theorem lookup_contents (d : Document) (name : String) :
    d.contents.lookup name = d.find? name := by
  rw [contents, Finmap.dlookup_list_toFinmap, find?]
  induction d.fields with
  | nil => rfl
  | cons f fields ih =>
    obtain ⟨n, v⟩ := f
    rw [List.map_cons, Fields.find?]
    split_ifs with hn
    · subst hn
      exact List.dlookup_cons_eq (β := fun _ => Json) _ n v
    · rw [List.dlookup_cons_ne _ _ (Ne.symm hn), ih]

theorem contents_set (d : Document) (name : String) (value : Json) :
    (d.set name value).contents = d.contents.insert name value := by
  refine Finmap.ext_lookup fun n => ?_
  rw [lookup_contents, find?, set, Fields.find?_insert]
  split_ifs with hn
  · rw [← hn, Finmap.lookup_insert]
  · rw [Finmap.lookup_insert_of_ne _ (Ne.symm hn), lookup_contents, find?]

theorem contents_remove (d : Document) (name : String) :
    (d.remove name).contents = d.contents.erase name := by
  refine Finmap.ext_lookup fun n => ?_
  rw [lookup_contents, find?, remove, Fields.find?_erase]
  split_ifs with hn
  · rw [← hn, Finmap.lookup_erase]
  · rw [Finmap.lookup_erase_ne (Ne.symm hn), lookup_contents, find?]

theorem contents_append (d : Document) (name : String) (item : Json) :
    (d.settle (d.append name item)).map contents id = d.contents.append name item := by
  unfold append FieldMap.append
  rw [lookup_contents]
  cases d.find? name with
  | none => exact Prod.ext (contents_set d name _) rfl
  | some v =>
    cases v with
    | array items => exact Prod.ext (contents_set d name _) rfl
    | _ => rfl

/-! ## Changes -/

/-- A change of a document is a change of its contents. -/
theorem contents_edit (d : Document) (x : Edit) :
    (d.edit x).map contents id = d.contents.edit x := by
  cases x with
  | setString name value => exact Prod.ext (contents_set d name _) rfl
  | setInt32 name value => exact Prod.ext (contents_set d name _) rfl
  | setDouble name value => exact Prod.ext (contents_set d name _) rfl
  | setDocument name value => exact Prod.ext (contents_set d name _) rfl
  | appendString name value => exact contents_append d name _
  | appendDocument name value => exact contents_append d name _
  | remove name =>
    refine Prod.ext (contents_remove d name) ?_
    simp [edit, FieldMap.edit, contains]

theorem Edit.run_map {σ τ : Type} {f : σ → τ} {change : σ → Edit → σ × Answer}
    {change' : τ → Edit → τ × Answer} (h : ∀ s x, (change s x).map f id = change' (f s) x) (s : σ)
    (xs : List Edit) : (run change s xs).map f id = run change' (f s) xs := by
  induction xs generalizing s with
  | nil => rfl
  | cons x xs ih =>
    have hrest := ih (change s x).1
    rw [run, run, ← h s x, Prod.map_fst, Prod.map_snd, ← hrest]
    rfl

theorem contents_edits (d : Document) (xs : List Edit) :
    (d.edits xs).map contents id = d.contents.edits xs := Edit.run_map contents_edit d xs

/-- One more item is put into an array, or refused where something else is. -/
theorem append_cases (d : Document) (name : String) (item : Json) :
    (∃ v, d.settle (d.append name item) = (d.set name v, .done)) ∨
      ∃ v, d.find? name = some v ∧ v.kind ≠ .array ∧ d.settle (d.append name item) =
        (d, .refused (.invalidArgument (.notAnArray name v.kind))) := by
  unfold append
  cases d.find? name with
  | none => exact .inl ⟨_, rfl⟩
  | some v =>
    cases v with
    | array items => exact .inl ⟨_, rfl⟩
    | _ => exact .inr ⟨_, rfl, nofun, rfl⟩

/-- A change sets its name or removes it, or it is refused and changes nothing. -/
theorem edit_cases (d : Document) (x : Edit) :
    (∃ v, d.edit x = (d.set x.name v, .done)) ∨
    d.edit x = (d.remove x.name, .removed (d.contains x.name)) ∨
    ∃ v, d.find? x.name = some v ∧ v.kind ≠ .array ∧
      d.edit x = (d, .refused (.invalidArgument (.notAnArray x.name v.kind))) := by
  cases x with
  | setString name value => exact .inl ⟨_, rfl⟩
  | setInt32 name value => exact .inl ⟨_, rfl⟩
  | setDouble name value => exact .inl ⟨_, rfl⟩
  | setDocument name value => exact .inl ⟨_, rfl⟩
  | appendString name value => exact (append_cases d name _).imp_right .inr
  | appendDocument name value => exact (append_cases d name _).imp_right .inr
  | remove name => exact .inr (.inl rfl)

theorem ordered_edit (hd : Fields.Ordered d.fields) (x : Edit) :
    Fields.Ordered (d.edit x).1.fields := by
  rcases edit_cases d x with ⟨v, h⟩ | h | ⟨v, -, -, h⟩
  · rw [h]
    exact hd.insert x.name v
  · rw [h]
    exact hd.erase x.name
  · rw [h]
    exact hd

theorem ordered_edits (hd : Fields.Ordered d.fields) (xs : List Edit) :
    Fields.Ordered (d.edits xs).1.fields := by
  induction xs generalizing d with
  | nil => exact hd
  | cons x xs ih => exact ih (ordered_edit hd x)

/-- A change touches its own name only. -/
theorem find?_edit_of_ne {x : Edit} {n : String} (hn : n ≠ x.name) :
    (d.edit x).1.find? n = d.find? n := by
  rcases edit_cases d x with ⟨v, h⟩ | h | ⟨v, -, -, h⟩
  · rw [h, find?, set, Fields.find?_insert, if_neg hn.symm, find?]
  · rw [h, find?, remove, Fields.find?_erase, if_neg hn.symm, find?]
  · rw [h]

theorem edit_of_refused {x : Edit} {why : Fault} (hwhy : (d.edit x).2 = .refused why) :
    (d.edit x).1 = d ∧ ∃ v, d.find? x.name = some v ∧ v.kind ≠ .array ∧
      why = .invalidArgument (.notAnArray x.name v.kind) := by
  rcases edit_cases d x with ⟨v, h⟩ | h | ⟨v, hv, hkind, h⟩
  · rw [h] at hwhy
    nomatch hwhy
  · rw [h] at hwhy
    nomatch hwhy
  · rw [h] at hwhy ⊢
    exact ⟨rfl, v, hv, hkind, (Answer.refused.inj hwhy).symm⟩

/-! ## Names -/

theorem names_ascend (hd : Fields.Ordered d.fields) :
    d.names.Pairwise fun a b => Utf8.encode a < Utf8.encode b :=
  List.pairwise_map.mpr (hd.imp Utf8.encode_lt_of_lt)

theorem mem_names_iff : name ∈ d.names ↔ name ∈ d.contents := by
  rw [← Finmap.lookup_isSome, lookup_contents, find?, Fields.isSome_find?_iff, names]

/-- Contents determine a document. -/
theorem eq_of_contents (hd : Fields.Ordered d.fields) (he : Fields.Ordered e.fields)
    (h : d.contents = e.contents) : d = e := by
  have hfields : d.fields = e.fields := hd.eq_of_find? he fun n => by
    have hn := congrArg (Finmap.lookup n) h
    rwa [lookup_contents, lookup_contents] at hn
  cases d
  cases e
  exact congrArg Document.mk hfields

/-- A document is a finite map from names to values, kept in the order of the names, and any changes
of the one are the same changes of the other: each touches its own name only and gives the same
answer, and one that is refused changes nothing. The names are those of the map, each once. A reader
gives what is there exactly if it has the type of the reader; an integer is also read as the nearest
double. -/
theorem edits_as_map :
    (∀ d : Document, Made d → Fields.Ordered d.fields) ∧
    (∀ n : Int, Json.IsWord n → (Double.ofInt n).isFinite = true ∧
      (Double.ofInt n).negative = decide (n < 0) ∧
        Decimal.IsNearest n.natAbs (Double.ofInt n).rank) ∧
    ∀ (d : Document) (xs : List Edit), Fields.Ordered d.fields →
      let e := (d.edits xs).1
      let m := (d.contents.edits xs).1
      e.contents = m ∧ (d.edits xs).2 = (d.contents.edits xs).2 ∧
      (∀ f : Document, Fields.Ordered f.fields → f.contents = m → f = e) ∧
      (∀ x n, n ≠ Edit.name x → (e.edit x).1.find? n = e.find? n) ∧
      (∀ x why, (e.edit x).2 = .refused why → (e.edit x).1 = e ∧ ∃ v,
        m.lookup x.name = some v ∧ v.kind ≠ .array ∧
          why = .invalidArgument (.notAnArray x.name v.kind)) ∧
      (e.names.Pairwise fun a b => Utf8.encode a < Utf8.encode b) ∧ (∀ n, n ∈ e.names ↔ n ∈ m) ∧
      ∀ n,
        (∀ s, e.getString? n = some s ↔ m.lookup n = some (.text s)) ∧
        (∀ i, e.getInt32? n = some i ↔ m.lookup n = some (.integer i.toInt)) ∧
        (∀ x, e.getDouble? n = some x ↔ m.lookup n = some (.double x) ∨
          ∃ i, m.lookup n = some (.integer i) ∧ x = .ofInt i) ∧
        (∀ f, e.getDocument? n = some f ↔ m.lookup n = some (.object f.fields)) ∧
        (∀ size, e.arrayLength? n = some size ↔
          ∃ items, m.lookup n = some (.array items) ∧ items.length = size) ∧
        (∀ index s, e.stringItem? n index = some s ↔
          ∃ items, m.lookup n = some (.array items) ∧ items[index]? = some (.text s)) ∧
        ∀ index f, e.documentItem? n index = some f ↔
          ∃ items, m.lookup n = some (.array items) ∧ items[index]? = some (.object f.fields) := by
  refine ⟨fun d hd => (wellFormed_iff.mp hd.wellFormed).1, fun n hn => ?_, ?_⟩
  · obtain ⟨hlow, hhigh⟩ := hn
    exact Decimal.ofInt_spec (by omega)
  · intro d xs hd e m
    have hcontents : e.contents = m := congrArg Prod.fst (contents_edits d xs)
    have hordered : Fields.Ordered e.fields := ordered_edits hd xs
    have hlookup : ∀ n, m.lookup n = e.find? n := fun n => by rw [← hcontents, lookup_contents]
    simp only [hlookup]
    refine ⟨hcontents, congrArg Prod.snd (contents_edits d xs), fun f hf hsame => ?_,
      fun x n => find?_edit_of_ne, fun x why => edit_of_refused, names_ascend hordered, fun n => ?_,
      fun n => ⟨fun s => getString?_eq_some_iff, fun i => getInt32?_eq_some_iff,
        fun x => getDouble?_eq_some_iff, fun f => getDocument?_eq_some_iff,
        fun size => arrayLength?_eq_some_iff, fun index s => stringItem?_eq_some_iff,
        fun index f => documentItem?_eq_some_iff⟩⟩
    · exact eq_of_contents hf hordered (hsame.trans hcontents.symm)
    · rw [← hcontents, mem_names_iff]

/-- A field changes its type, and before that an item for it is refused. -/
def rewritten : List Edit :=
  [.setString "a" "text", .appendString "a" "item", .remove "a", .appendString "a" "item",
    .setDouble "b" (.infinity false), .appendDocument "a" (empty.setInt32 "n" 1)]

theorem edits_as_map_rewritten :
    Fields.Ordered empty.fields ∧
      (empty.edits rewritten).2 = [.done, .refused (.invalidArgument (.notAnArray "a" .string)),
        .removed true, .done, .done, .done] ∧
      (empty.edits rewritten).1.stringItem? "a" 0 = some "item" ∧
      (empty.edits rewritten).1.documentItem? "a" 1 = some (empty.setInt32 "n" 1) ∧
      (empty.edits rewritten).1.getString? "a" = none ∧
      (empty.edits rewritten).1.getDouble? "b" = none := by
  have hordered : Fields.Ordered empty.fields := List.Pairwise.nil
  obtain ⟨-, -, hmap⟩ := edits_as_map
  obtain ⟨-, hanswers, -, -, -, -, -, hreaders⟩ := hmap empty rewritten hordered
  have ha : (empty.contents.edits rewritten).1.lookup "a" =
      some (.array [.text "item", .object [("n", .integer 1)]]) := rfl
  have hb : (empty.contents.edits rewritten).1.lookup "b" = some .null := rfl
  obtain ⟨hstring, -, -, -, -, hitem, hdocument⟩ := hreaders "a"
  obtain ⟨-, -, hdouble, -⟩ := hreaders "b"
  refine ⟨hordered, hanswers.trans rfl, (hitem 0 "item").mpr ⟨_, ha, rfl⟩,
    (hdocument 1 _).mpr ⟨_, ha, rfl⟩, ?_, ?_⟩
  · refine Option.eq_none_iff_forall_ne_some.mpr fun s hs => ?_
    nomatch ha.symm.trans ((hstring s).mp hs)
  · refine Option.eq_none_iff_forall_ne_some.mpr fun x hx => ?_
    rcases (hdouble x).mp hx with h | ⟨i, h, -⟩
    · nomatch hb.symm.trans h
    · nomatch hb.symm.trans h

end TopicBus.Document
