import LedgerQuery.Proofs.Client.Envelope
import LedgerQuery.Proofs.Json.Accepted

/-! Which answers are taken for an envelope. Besides objects these are also the lists that are not
longer than an envelope has parts. -/

namespace LedgerQuery.Envelope

open Json

variable {τ : Type}

section Fields

lemma link_fields_sound : ∀ f ∈ link.record.fields, f.Sound := by
  intro f hf depth a
  obtain rfl := List.mem_singleton.mp hf
  exact Scan.text_sound.map fun text => a ++ [("href", text)]

lemma links_fields_sound : ∀ f ∈ linksRecord.fields, f.Sound := by
  intro f hf depth a
  obtain rfl := List.mem_singleton.mp hf
  exact (Scan.optional_sound (Record.sound link_fields_sound depth)).map fun fields =>
    (some (fields.bind fun fields => fields.head?.map (·.2)) : Links)

lemma record_fields_sound : ∀ f ∈ record.fields, f.Sound := by
  intro f hf depth p
  rcases List.mem_pair.mp hf with rfl | rfl
  · exact (Scan.object_sound depth).map fun embedded => { p with embedded := some embedded }
  · exact (Record.sound links_fields_sound depth).map fun links => { p with links := some links }

end Fields

def IsBody (bytes : List UInt8) : Prop :=
  Grammar.Document .object bytes ∨ ∃ n ≤ 2, Grammar.Document (.list n) bytes

lemma isBody_of_ok {bytes : List UInt8} {resource : String} {take : Json → Except String τ}
    {p : Page τ} (h : readPageBy bytes resource take = .ok p) : IsBody bytes := by
  rw [readPageBy, Envelope.read] at h
  cases hread : record.readAll bytes with
  | error fault =>
    rw [hread] at h
    cases h
  | ok parts =>
    obtain ⟨root, hroot, rfl | ⟨n, hn, rfl⟩⟩ := Record.readAll_sound record_fields_sound hread
    · exact Or.inl hroot
    · exact Or.inr ⟨n, hn, hroot⟩

theorem page_only_of_envelope (take : Json → Except String τ) (resource : String)
    (bytes : List UInt8) :
    ((∃ p, readPageBy bytes resource take = .ok p) ∧ IsBody bytes ∨
      ∃ reason, readPageBy bytes resource take = .error (.decode reason)) ∧
    ∀ j, Document j bytes → nesting j < Scan.levels → ∀ p,
      readPageBy bytes resource take = .ok p ↔
        ∃ embedded links, places? j = some (embedded, links) ∧
          HasItems take resource embedded p.items ∧ HasNext links (p.next.map (·.token)) := by
  constructor
  · rcases readPageBy_cases bytes resource take with ⟨p, hp⟩ | hreason
    · exact Or.inl ⟨⟨p, hp⟩, isBody_of_ok hp⟩
    · exact Or.inr hreason
  · intro j hd hn p
    exact readPageBy_eq_ok hd hn

theorem page_only_of_envelope_entities :
    let entity (id : String) : Json := .obj [("id", .str id)]
    readPageBy (Utf8.ofString (Json.arr [entity "a", entity "b"]).write) "transfers"
      ItemKind.entity.take = .ok ⟨[], none⟩ := by
  intro entity
  have hentity (id : String) : (entity id).Proper := ⟨List.pairwise_singleton _ _, trivial, trivial⟩
  have hdocument : Document (.arr [entity "a", entity "b"])
      (Utf8.ofString (Json.arr [entity "a", entity "b"]).write) :=
    document_write ⟨hentity "a", hentity "b", trivial⟩
  exact ((page_only_of_envelope ItemKind.entity.take "transfers" _).2 _ hdocument (by decide)
    ⟨[], none⟩).mpr ⟨_, _, rfl, .absent rfl, .links (.absent rfl)⟩

theorem page_of_empty_list : ¬ ∀ (bytes : List UInt8) (resource : String) (p : Page Json),
    readPage bytes resource .any = .ok p → Grammar.Document .object bytes := by
  intro h
  obtain ⟨rest, hvalue, -⟩ := h [0x5b, 0x5d] "transfers" ⟨[], none⟩ rfl
  cases hvalue with
  | object hb _ => cases hb

end LedgerQuery.Envelope
