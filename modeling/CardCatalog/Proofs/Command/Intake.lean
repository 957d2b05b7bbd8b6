import CardCatalog.Command.Intake
import CardCatalog.Proofs.Index.Archive
import CardCatalog.Proofs.Index.Session
import CardCatalog.Proofs.Query.Quotation

/-!
What is taken out of files: of their lines those that are entries which the
collection accepts, each as often as it stands there. A file is at fault if it
cannot be read or has a line that is no text; then nothing at all is taken in, and
otherwise the entries are counted and their cards committed, a later one of an id
in the place of an earlier one.
-/

namespace CardCatalog

/-! Lines -/

namespace Text

theorem ofOctets?_toOctets (t : Text) : ofOctets? (toOctets t) = some t := by
  have valid := (String.ofList t).isValidUTF8
  have back : String.fromUTF8? (toOctets t) = some (String.ofList t) := dif_pos valid
  rw [ofOctets?, back, Option.map_some, String.toList_ofList]

theorem toList_toOctets (t : Text) : (toOctets t).data.toList = octets t := by
  show (String.ofList t).toByteArray.data.toList = _
  rw [String.toByteArray_ofList, List.utf8Encode, List.data_toByteArray]
  rfl

-- Of longer characters every octet is above those of ASCII.
theorem lineEnd_of_octet {c : Char} (octet : 10 ∈ String.utf8EncodeChar c) : c = '\n' := by
  have value {n : Nat} (small : n < 256) (same : (10 : UInt8) = UInt8.ofNat n) : n = 10 := by
    have numbers := congrArg UInt8.toNat same
    rw [UInt8.toNat_ofNat', Nat.mod_eq_of_lt small] at numbers
    exact numbers.symm
  have low : c.val.toNat = 10 := by
    dsimp only [String.utf8EncodeChar] at octet
    split at octet
    · exact value (by omega) (List.mem_singleton.mp octet)
    · exfalso
      split at octet
      · simp only [List.mem_cons, List.not_mem_nil, or_false] at octet
        rcases octet with same | same <;> have := value (by omega) same <;> omega
      · split at octet
        · simp only [List.mem_cons, List.not_mem_nil, or_false] at octet
          rcases octet with same | same | same <;> have := value (by omega) same <;> omega
        · simp only [List.mem_cons, List.not_mem_nil, or_false] at octet
          rcases octet with same | same | same | same <;> have := value (by omega) same <;> omega
  exact Char.ext (UInt32.toNat_inj.mp low)

end Text

theorem Intake.lines_toOctets {t : Text} (solid : '\n' ∉ t) :
    lines (Text.toOctets t) = [Text.toOctets t] := by
  have free : (10 : UInt8) ∉ (Text.toOctets t).data.toList := by
    rw [Text.toList_toOctets, Text.octets]
    intro octet
    obtain ⟨c, inside, among⟩ := List.mem_flatMap.mp octet
    exact solid (Text.lineEnd_of_octet among ▸ inside)
  rw [lines, List.splitOn_eq_singleton free]
  rfl

namespace Intake

/-- The entry that a line is, if it is not blank and the collection accepts it. -/
def accepted? (collection : Collection) (text : Text) : Option Entry :=
  if Text.trim text = [] then none else (ofLine? text).filter (Session.Accepted collection ·)

def taken? (collection : Collection) (line : ByteArray) : Option Entry :=
  (Text.ofOctets? line).bind (accepted? collection)

def entries (collection : Collection) : Except FileFault ByteArray → List Entry
  | .error _ => []
  | .ok octets => (lines octets).filterMap (taken? collection)

/-- It cannot be opened or read, or a line of it is no text. -/
def Faulty : Except FileFault ByteArray → Prop
  | .error _ => True
  | .ok octets => ∃ line ∈ lines octets, Text.ofOctets? line = none

theorem entries_toOctets (collection : Collection) {t : Text} (solid : '\n' ∉ t) :
    entries collection (.ok (Text.toOctets t)) = (accepted? collection t).toList := by
  rw [entries, lines_toOctets solid, List.filterMap_cons, List.filterMap_nil, taken?,
    Text.ofOctets?_toOctets, Option.bind_some]
  cases accepted? collection t <;> rfl

theorem sound_toOctets {t : Text} (solid : '\n' ∉ t) : ¬ Faulty (.ok (Text.toOctets t)) := by
  simp [Faulty, lines_toOctets solid, Text.ofOctets?_toOctets]

theorem entries_card {collection : Collection} {c : Card} (lasting : c.Lasting)
    (accepted : Session.Accepted collection ⟨c.id, c.type, c.year, c.fields⟩) :
    entries collection (.ok (Text.toOctets (Archive.card c).compact)) =
      [⟨c.id, c.type, c.year, c.fields⟩] := by
  have plain := Archive.plain_card c
  have read := Json.read?_compact plain
  have solid : Text.trim (Archive.card c).compact ≠ [] :=
    Text.trim_ne_nil (c := '[') (List.mem_cons_self ..) (by decide)
  rw [entries_toOctets collection (Json.solid_compact plain), accepted?, if_neg solid, ofLine?, read,
    Option.bind_some, Archive.ofJson?_card lasting, Option.filter_some,
    if_pos (decide_eq_true accepted)]
  rfl

theorem accepted_of_entries {collection : Collection} {content : Except FileFault ByteArray}
    {entry : Entry} (member : entry ∈ entries collection content) :
    Session.Accepted collection entry ∧ ∃ j, Entry.ofJson? j = some entry := by
  cases content with
  | error fault => exact absurd member List.not_mem_nil
  | ok octets =>
    obtain ⟨line, _, taken⟩ := List.mem_filterMap.mp member
    obtain ⟨text, _, accepted⟩ := Option.bind_eq_some_iff.mp taken
    unfold accepted? at accepted
    split at accepted
    · cases accepted
    · obtain ⟨read, accepted⟩ := Option.filter_eq_some_iff.mp accepted
      obtain ⟨j, _, read⟩ := Option.bind_eq_some_iff.mp read
      exact ⟨of_decide_eq_true accepted, j, read⟩

theorem word_of_yearOfDate {date : Text} {year : Int} (derived : yearOfDate date = some year) :
    Word.holdsSigned year = true := by
  dsimp only [yearOfDate] at derived
  split at derived
  · split at derived
    · rename_i range
      cases derived
      have low : Word.lowestSigned ≤ (Text.number (date.take 4) : Int) := by
        unfold Word.lowestSigned
        omega
      have high : (Text.number (date.take 4) : Int) ≤ Word.highestSigned := by
        unfold Word.highestSigned
        omega
      simp [Word.holdsSigned, low, high]
    · cases derived
  · cases derived

theorem lasting_of_entries {collection : Collection} {content : Except FileFault ByteArray}
    {entry : Entry} (member : entry ∈ entries collection content) {card : Card}
    (made : entry.card? collection = .ok card) : card.Lasting := by
  obtain ⟨_, j, read⟩ := accepted_of_entries member
  obtain ⟨type, _, _, rfl⟩ := Session.card?_ok made
  intro year given
  rcases Option.or_eq_some_iff.mp given with own | ⟨_, derived⟩
  · exact Entry.word_of_ofJson? read year own
  · obtain ⟨date, _, derived⟩ := Option.bind_eq_some_iff.mp derived
    exact word_of_yearOfDate derived

def took (state : Intake) (more : List Entry) : Intake :=
  ⟨{ state.catalog with
      pending := state.catalog.pending ++ Session.cardsOf state.catalog.collection more },
    state.added + more.length⟩

theorem took_nil (state : Intake) : state.took [] = state := by
  simp [took, Session.cardsOf]

theorem took_took (state : Intake) (first second : List Entry) :
    (state.took first).took second = state.took (first ++ second) := by
  simp [took, Session.cardsOf_append, Nat.add_assoc]

theorem line_eq (state : Intake) (text : Text) :
    state.line text = state.took (accepted? state.catalog.collection text).toList := by
  unfold line accepted?
  split
  · simp [took_nil]
  · cases read : ofLine? text with
    | none => simp [took_nil]
    | some entry =>
      have accepted := @Session.accepted_iff state.catalog.collection entry
      cases made : entry.card? state.catalog.collection with
      | ok card =>
        have yes : Session.Accepted state.catalog.collection entry := accepted.mpr ⟨card, made⟩
        simp [Catalog.add_card made, Option.filter_some, yes, took, Session.cardsOf, made,
          Except.toOption]
      | error fault =>
        have no : ¬ Session.Accepted state.catalog.collection entry := by simp [accepted, made]
        simp [Catalog.add_fault made, Option.filter_some, no, took_nil]

theorem lineOf_eq (path : Text) (state : Intake) {octets : ByteArray}
    (text : Text.ofOctets? octets ≠ none) : lineOf path state octets =
      .ok (state.took (taken? state.catalog.collection octets).toList) := by
  obtain ⟨t, found⟩ := Option.ne_none_iff_exists'.mp text
  rw [lineOf, taken?, found, Option.bind_some]
  exact congrArg Except.ok (line_eq state t)

theorem lines_ok (path : Text) (state : Intake) {parts : List ByteArray}
    (texts : ∀ part ∈ parts, Text.ofOctets? part ≠ none) : parts.foldlM (lineOf path) state =
      .ok (state.took (parts.filterMap (taken? state.catalog.collection))) := by
  induction parts generalizing state with
  | nil =>
    rw [List.filterMap_nil, took_nil]
    rfl
  | cons part rest ih =>
    have tail := ih (state.took (taken? state.catalog.collection part).toList)
      fun other member => texts other (List.mem_cons_of_mem part member)
    rw [List.foldlM_cons, lineOf_eq path state (texts part (by simp))]
    refine tail.trans ?_
    rw [took_took]
    cases found : taken? state.catalog.collection part <;> simp [took, found]

theorem lines_error (path : Text) (state : Intake) {parts : List ByteArray}
    (broken : ∃ part ∈ parts, Text.ofOctets? part = none) :
    parts.foldlM (lineOf path) state = .error (.reading path) := by
  induction parts generalizing state with
  | nil =>
    obtain ⟨_, member, _⟩ := broken
    exact absurd member List.not_mem_nil
  | cons part rest ih =>
    rw [List.foldlM_cons]
    by_cases here : Text.ofOctets? part = none
    · rw [lineOf, here]
      rfl
    · obtain ⟨other, member, none⟩ := broken
      rcases List.mem_cons.mp member with rfl | later
      · exact absurd none here
      · rw [lineOf_eq path state here]
        exact ih _ ⟨other, later, none⟩

theorem file_ok (state : Intake) (path : Text) {content : Except FileFault ByteArray}
    (sound : ¬ Faulty content) : state.file path content =
      .ok (state.took (entries state.catalog.collection content)) := by
  cases content with
  | error fault => exact absurd trivial sound
  | ok octets => exact lines_ok path state fun line member none => sound ⟨line, member, none⟩

theorem file_error (state : Intake) (path : Text) {content : Except FileFault ByteArray}
    (faulty : Faulty content) : ∃ fault, state.file path content = .error fault := by
  cases content with
  | error fault => cases fault <;> exact ⟨_, rfl⟩
  | ok octets => exact ⟨_, lines_error path state faulty⟩

theorem files_ok (state : Intake) {files : List (Text × Except FileFault ByteArray)}
    (sound : ∀ given ∈ files, ¬ Faulty given.2) :
    files.foldlM (fun state given => file state given.1 given.2) state =
      .ok (state.took (files.flatMap fun given => entries state.catalog.collection given.2)) := by
  induction files generalizing state with
  | nil =>
    rw [List.flatMap_nil, took_nil]
    rfl
  | cons given rest ih =>
    have tail := ih (state.took (entries state.catalog.collection given.2))
      fun other member => sound other (List.mem_cons_of_mem given member)
    rw [List.foldlM_cons, file_ok state given.1 (sound given (by simp)), List.flatMap_cons,
      ← took_took]
    exact tail

theorem files_error (state : Intake) {files : List (Text × Except FileFault ByteArray)}
    (faulty : ∃ given ∈ files, Faulty given.2) :
    ∃ fault, files.foldlM (fun state given => file state given.1 given.2) state = .error fault := by
  induction files generalizing state with
  | nil =>
    obtain ⟨_, member, _⟩ := faulty
    exact absurd member List.not_mem_nil
  | cons given rest ih =>
    rw [List.foldlM_cons]
    by_cases here : Faulty given.2
    · obtain ⟨fault, stops⟩ := file_error state given.1 here
      exact ⟨fault, by rw [stops]; rfl⟩
    · obtain ⟨other, member, broken⟩ := faulty
      rcases List.mem_cons.mp member with rfl | later
      · exact absurd broken here
      · rw [file_ok state given.1 here]
        exact ih _ ⟨other, later, broken⟩

theorem run_ok (catalog : Catalog) {files : List (Text × Except FileFault ByteArray)}
    (sound : ∀ given ∈ files, ¬ Faulty given.2) : run catalog files =
      .ok (commit (took ⟨catalog, 0⟩
        (files.flatMap fun given => entries catalog.collection given.2))) := by
  rw [run, files_ok ⟨catalog, 0⟩ sound]
  rfl

theorem run_error (catalog : Catalog) {files : List (Text × Except FileFault ByteArray)}
    (faulty : ∃ given ∈ files, Faulty given.2) : ∃ fault, run catalog files = .error fault := by
  obtain ⟨fault, stops⟩ := files_error ⟨catalog, 0⟩ faulty
  exact ⟨fault, by rw [run, stops]; rfl⟩

end Intake

end CardCatalog
