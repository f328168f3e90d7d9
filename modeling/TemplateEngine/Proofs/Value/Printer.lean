/-
Values without a text: those with an integer beyond the limit on digits among their parts.
-/
import TemplateEngine.Proofs.Result
import TemplateEngine.Value.Printer

namespace TemplateEngine

namespace Value

theorem quotedAtom_eq_error {f : Fault} (v : Value) (h : v.quotedAtom = .error f) : f = .value .digitsWritten := by
  unfold quotedAtom at h
  split at h <;> try cases h
  split at h <;> cases h
  rfl

mutual

theorem quotedForm_eq_error {f : Fault} : ∀ {v : Value}, v.quotedForm = .error f → f = .value .digitsWritten
  | .list items, h => by
    rw [quotedForm] at h
    rcases bind_eq_error.1 h with h | ⟨parts, -, h⟩
    · exact quotedItems_eq_error h
    · cases h
  | .tuple items, h => by
    rw [quotedForm] at h
    rcases bind_eq_error.1 h with h | ⟨parts, -, h⟩
    · exact quotedItems_eq_error h
    · cases h
  | .dict entries, h => by
    rw [quotedForm] at h
    rcases bind_eq_error.1 h with h | ⟨parts, -, h⟩
    · exact quotedEntries_eq_error h
    · cases h
  | .record fields, h => by
    rw [quotedForm] at h
    rcases bind_eq_error.1 h with h | ⟨parts, -, h⟩
    · exact quotedFields_eq_error h
    · cases h
  | .none, h => quotedAtom_eq_error .none h
  | .bool a, h => quotedAtom_eq_error (.bool a) h
  | .int a, h => quotedAtom_eq_error (.int a) h
  | .float a, h => quotedAtom_eq_error (.float a) h
  | .nan a, h => quotedAtom_eq_error (.nan a) h
  | .str a, h => quotedAtom_eq_error (.str a) h
  | .bytes a, h => quotedAtom_eq_error (.bytes a) h
  | .callable a, h => quotedAtom_eq_error (.callable a) h
  | .loop a b, h => quotedAtom_eq_error (.loop a b) h
  | .faulty a b c, h => quotedAtom_eq_error (.faulty a b c) h

theorem quotedItems_eq_error {f : Fault} : ∀ {vs : List Value}, quotedItems vs = .error f → f = .value .digitsWritten
  | [], h => nomatch h
  | v :: vs, h => by
    rw [quotedItems] at h
    rcases bind_eq_error.1 h with h | ⟨t, -, h⟩
    · exact quotedForm_eq_error h
    · rcases bind_eq_error.1 h with h | ⟨ts, -, h⟩
      · exact quotedItems_eq_error h
      · cases h

theorem quotedEntries_eq_error {f : Fault} :
    ∀ {es : List (Value × Value)}, quotedEntries es = .error f → f = .value .digitsWritten
  | [], h => nomatch h
  | (k, v) :: es, h => by
    rw [quotedEntries] at h
    rcases bind_eq_error.1 h with h | ⟨key, -, h⟩
    · exact quotedForm_eq_error h
    · rcases bind_eq_error.1 h with h | ⟨value, -, h⟩
      · exact quotedForm_eq_error h
      · rcases bind_eq_error.1 h with h | ⟨ts, -, h⟩
        · exact quotedEntries_eq_error h
        · cases h

theorem quotedFields_eq_error {f : Fault} :
    ∀ {fs : List (String × Value)}, quotedFields fs = .error f → f = .value .digitsWritten
  | [], h => nomatch h
  | (name, v) :: fs, h => by
    rw [quotedFields] at h
    rcases bind_eq_error.1 h with h | ⟨value, -, h⟩
    · exact quotedForm_eq_error h
    · rcases bind_eq_error.1 h with h | ⟨ts, -, h⟩
      · exact quotedFields_eq_error h
      · cases h

end

theorem plainText_eq_error {f : Fault} {v : Value} (h : v.plainText = .error f) : f = .value .digitsWritten := by
  unfold plainText at h
  split at h
  · cases h
  · exact quotedForm_eq_error h

theorem outputText_eq_error {f : Fault} {v : Value} (h : v.outputText = .error f) : f = .value .digitsWritten := by
  unfold outputText at h
  split at h
  · cases h
  · cases h
  · exact plainText_eq_error h

/-! ## Parts -/

/-- A value is another one, or has it as a part at some depth. -/
inductive Has : Value → Value → Prop
  | self (v : Value) : Has v v
  | listItem {items : List Value} {v w : Value} (hv : v ∈ items) (h : Has v w) : Has (.list items) w
  | tupleItem {items : List Value} {v w : Value} (hv : v ∈ items) (h : Has v w) : Has (.tuple items) w
  | key {entries : List (Value × Value)} {k v w : Value} (he : (k, v) ∈ entries) (h : Has k w) : Has (.dict entries) w
  | value {entries : List (Value × Value)} {k v w : Value} (he : (k, v) ∈ entries) (h : Has v w) : Has (.dict entries) w
  | field {fields : List (String × Value)} {n : String} {v w : Value} (hf : (n, v) ∈ fields) (h : Has v w) :
      Has (.record fields) w

/-- An integer with more digits than are written is the value or a part of it. -/
def Unwritten (v : Value) : Prop :=
  ∃ n : Int, v.Has (.int n) ∧ Number.digitLimit < (Nat.toDigits 10 n.natAbs).length

theorem unwritten_list {items : List Value} : (list items).Unwritten ↔ ∃ v ∈ items, v.Unwritten := by
  constructor
  · rintro ⟨n, h, hn⟩
    cases h with
    | listItem hv h => exact ⟨_, hv, n, h, hn⟩
  · rintro ⟨v, hv, n, h, hn⟩
    exact ⟨n, .listItem hv h, hn⟩

theorem unwritten_tuple {items : List Value} : (tuple items).Unwritten ↔ ∃ v ∈ items, v.Unwritten := by
  constructor
  · rintro ⟨n, h, hn⟩
    cases h with
    | tupleItem hv h => exact ⟨_, hv, n, h, hn⟩
  · rintro ⟨v, hv, n, h, hn⟩
    exact ⟨n, .tupleItem hv h, hn⟩

theorem unwritten_dict {entries : List (Value × Value)} :
    (dict entries).Unwritten ↔ ∃ e ∈ entries, e.1.Unwritten ∨ e.2.Unwritten := by
  constructor
  · rintro ⟨n, h, hn⟩
    cases h with
    | key he h => exact ⟨_, he, .inl ⟨n, h, hn⟩⟩
    | value he h => exact ⟨_, he, .inr ⟨n, h, hn⟩⟩
  · rintro ⟨e, he, ⟨n, h, hn⟩ | ⟨n, h, hn⟩⟩
    · exact ⟨n, .key he h, hn⟩
    · exact ⟨n, .value he h, hn⟩

theorem unwritten_record {fields : List (String × Value)} :
    (record fields).Unwritten ↔ ∃ f ∈ fields, f.2.Unwritten := by
  constructor
  · rintro ⟨n, h, hn⟩
    cases h with
    | field hf h => exact ⟨_, hf, n, h, hn⟩
  · rintro ⟨f, hf, n, h, hn⟩
    exact ⟨n, .field hf h, hn⟩

theorem unwritten_int {n : Int} : (int n).Unwritten ↔ Number.digitLimit < (Nat.toDigits 10 n.natAbs).length := by
  constructor
  · rintro ⟨m, h, hm⟩
    cases h
    exact hm
  · exact fun hn => ⟨n, .self _, hn⟩

theorem fails_quotedAtom_int (n : Int) : Fails (int n).quotedAtom ↔ (int n).Unwritten := by
  rw [unwritten_int, quotedAtom, Number.intText?]
  split <;> simp_all

/-! ## Quoted forms -/

mutual

/-- A value has no quoted form iff some part of it is an integer that is not written. -/
theorem fails_quotedForm : ∀ v : Value, Fails v.quotedForm ↔ v.Unwritten
  | .list items => by
    rw [unwritten_list, quotedForm, fails_bind_iff fun _ => iff_of_false (not_fails_pure _) id, or_false]
    exact fails_quotedItems items
  | .tuple items => by
    rw [unwritten_tuple, quotedForm, fails_bind_iff fun _ => iff_of_false (not_fails_pure _) id, or_false]
    exact fails_quotedItems items
  | .dict entries => by
    rw [unwritten_dict, quotedForm, fails_bind_iff fun _ => iff_of_false (not_fails_pure _) id, or_false]
    exact fails_quotedEntries entries
  | .record fields => by
    rw [unwritten_record, quotedForm, fails_bind_iff fun _ => iff_of_false (not_fails_pure _) id, or_false]
    exact fails_quotedFields fields
  | .int n => fails_quotedAtom_int n
  | .none => iff_of_false (not_fails_ok _) fun ⟨_, h, _⟩ => nomatch h
  | .bool _ => iff_of_false (not_fails_ok _) fun ⟨_, h, _⟩ => nomatch h
  | .float _ => iff_of_false (not_fails_ok _) fun ⟨_, h, _⟩ => nomatch h
  | .nan _ => iff_of_false (not_fails_ok _) fun ⟨_, h, _⟩ => nomatch h
  | .str _ => iff_of_false (not_fails_ok _) fun ⟨_, h, _⟩ => nomatch h
  | .bytes _ => iff_of_false (not_fails_ok _) fun ⟨_, h, _⟩ => nomatch h
  | .callable _ => iff_of_false (not_fails_ok _) fun ⟨_, h, _⟩ => nomatch h
  | .loop _ _ => iff_of_false (not_fails_ok _) fun ⟨_, h, _⟩ => nomatch h
  | .faulty _ _ _ => iff_of_false (not_fails_ok _) fun ⟨_, h, _⟩ => nomatch h

theorem fails_quotedItems : ∀ vs : List Value, Fails (quotedItems vs) ↔ ∃ v ∈ vs, v.Unwritten
  | [] => iff_of_false (not_fails_ok _) (by simp)
  | v :: vs => by
    rw [quotedItems, fails_bind_iff fun _ => fails_bind_iff fun _ => iff_of_false (not_fails_pure _) id, or_false,
      fails_quotedForm v, fails_quotedItems vs]
    simp only [List.mem_cons, exists_eq_or_imp]

theorem fails_quotedEntries : ∀ es : List (Value × Value),
    Fails (quotedEntries es) ↔ ∃ e ∈ es, e.1.Unwritten ∨ e.2.Unwritten
  | [] => iff_of_false (not_fails_ok _) (by simp)
  | (k, v) :: es => by
    rw [quotedEntries, fails_bind_iff fun _ => fails_bind_iff fun _ => fails_bind_iff fun _ =>
      iff_of_false (not_fails_pure _) id, or_false, fails_quotedForm k, fails_quotedForm v, fails_quotedEntries es]
    simp only [List.mem_cons, exists_eq_or_imp, or_assoc]

theorem fails_quotedFields : ∀ fs : List (String × Value), Fails (quotedFields fs) ↔ ∃ f ∈ fs, f.2.Unwritten
  | [] => iff_of_false (not_fails_ok _) (by simp)
  | (n, v) :: fs => by
    rw [quotedFields, fails_bind_iff fun _ => fails_bind_iff fun _ => iff_of_false (not_fails_pure _) id, or_false,
      fails_quotedForm v, fails_quotedFields fs]
    simp only [List.mem_cons, exists_eq_or_imp]

end

theorem fails_plainText (v : Value) : Fails v.plainText ↔ v.Unwritten := by
  unfold plainText
  split
  · exact iff_of_false (not_fails_ok _) fun ⟨_, h, _⟩ => nomatch h
  · exact fails_quotedForm _

theorem fails_outputText (v : Value) : Fails v.outputText ↔ v.Unwritten := by
  unfold outputText
  split
  · exact iff_of_false (not_fails_ok _) fun ⟨_, h, _⟩ => nomatch h
  · exact iff_of_false (not_fails_ok _) fun ⟨_, h, _⟩ => nomatch h
  · exact fails_plainText _

end Value

end TemplateEngine
