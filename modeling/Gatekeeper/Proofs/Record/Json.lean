import Gatekeeper.Proofs.Json.Reads
import Gatekeeper.Record.Basic
import Mathlib.Control.Monad.Basic

/-!
# Proofs/Record/Json — a record reads back from its text

`Record.toJson` writes a record and `Record.ofJson` reads it back, whatever texts it holds
(`ofJson_toJson`).  So no two records have one text, and a text that has been read and written again
is from then on written as it is (`faithful`).
-/

namespace Gatekeeper.Record

open Json (Problem Reader Reads Schema Value)

/-- The fields of a record read whole, each into a place of its own. -/
theorem schema_lawful : schema.Lawful where
  reads f hf t d e h := by
    simp only [schema, List.mem_cons, List.not_mem_nil, or_false] at hf
    rcases hf with rfl | rfl | rfl <;> obtain ⟨a, ha, hd⟩ := bind_eq_ok_iff.mp h <;> cases hd
    · exact ⟨Reader.whole_text ha, rfl⟩
    · exact ⟨Reader.whole_text.map ha, rfl⟩
    · exact ⟨Reader.whole_text.list.map ha, rfl⟩
  apart f hf g hg hne t d d' h := by
    simp only [schema, List.mem_cons, List.not_mem_nil, or_false] at hf hg
    rcases hf with rfl | rfl | rfl <;> rcases hg with rfl | rfl | rfl <;>
      first
      | exact absurd rfl hne
      | exact Schema.apart_of_keeps (fun _ _ => rfl) (fun _ _ => rfl) (fun _ _ => rfl)
          (fun _ _ _ => rfl) h

/-- **A record is taken out of the document** that it is written as. -/
theorem reads_reader : Reads reader value := by
  intro r
  let simple : Value := .object (r.simple.toList.map fun e => (e.1, .text e.2))
  let lists : Value := .object (r.lists.toList.map fun e => (e.1, .texts e.2))
  have hsimple : Reader.map Reader.text simple.tree = .ok r.simple := Reads.text.map r.simple
  have hlists : Reader.map (Reader.list Reader.text) lists.tree = .ok r.lists :=
    Reads.text.list.map r.lists
  have hmembers := calc
    schema.members [(some "id", (Value.text r.id).tree), (some "simpleFields", simple.tree),
        (some "listFields", lists.tree)] {}
    _ = schema.members [(some "simpleFields", simple.tree), (some "listFields", lists.tree)]
          ⟨some r.id, none, none⟩ := Schema.members_cons rfl rfl rfl _
    _ = schema.members [(some "listFields", lists.tree)] ⟨some r.id, some r.simple, none⟩ :=
          Schema.members_cons rfl rfl (by simp only [hsimple]; rfl) _
    _ = schema.members [] ⟨some r.id, some r.simple, some r.lists⟩ :=
          Schema.members_cons rfl rfl (by simp only [hlists]; rfl) _
  have hread : schema.read {} r.value.tree = .ok ⟨some r.id, some r.simple, some r.lists⟩ :=
    Schema.read_object_eq_ok_iff.mpr ⟨rfl, hmembers, rfl⟩
  rw [reader, hread]
  rfl

/-- **A record reads back from its text.** -/
theorem ofJson_toJson (r : Record) : ofJson r.toJson = .ok r :=
  Json.decode_render (reads_reader r)

/-- A text that holds a record, as it is written once the record has been read. -/
def rewrite (text : String) : Except Problem String := toJson <$> ofJson text

/-- **Records and their texts are faithful to each other.**  Every record reads back from its text,
so no two records are written alike; and a text that holds a record is written in a form that reads
as the same record and is written again as it is. -/
theorem faithful :
    (∀ r : Record, ofJson r.toJson = .ok r) ∧ Function.Injective toJson ∧
      ∀ text r, ofJson text = .ok r → rewrite text = .ok r.toJson ∧
        ofJson r.toJson = .ok r ∧ rewrite r.toJson = .ok r.toJson := by
  refine ⟨ofJson_toJson, fun r s h => ?_, fun text r h => ⟨?_, ofJson_toJson r, ?_⟩⟩
  · have hread : (Except.ok r : Except Problem Record) = .ok s := by
      rw [← ofJson_toJson r, h, ofJson_toJson s]
    exact Except.ok.inj hread
  · rw [rewrite, h]
    rfl
  · rw [rewrite, ofJson_toJson]
    rfl

/-- A text with members in another order, one that is skipped and a key that comes twice, and with
escapes that are not needed. -/
def wordyText : String :=
  "\x7b \"extra\" : [1.5e3, null, \x7b\x7d],\n\"simpleFields\":\x7b\"k\\ud83d\\ude00\":\"a\","
    ++ "\"k\\ud83d\\ude00\":\"\\u007F\\u000a\\/\"\x7d, \"id\":\"\" \x7d"

/-- The record that the wordy text holds. -/
def plainRecord : Record := (empty "").withSimple "k😀" "\x7f\n/"

/-- The wordy text is written again without its extras. -/
theorem faithful_wordyText :
    ofJson wordyText = .ok plainRecord ∧ rewrite wordyText = .ok plainRecord.toJson ∧
    plainRecord.toJson = "\x7b\"id\":\"\",\"simpleFields\":\x7b\"k😀\":\"\x7f\\n/\"\x7d,"
      ++ "\"listFields\":\x7b\x7d\x7d" ∧
    ofJson plainRecord.toJson = .ok plainRecord ∧
    rewrite plainRecord.toJson = .ok plainRecord.toJson := by
  have hread : ofJson wordyText = .ok plainRecord := by decide +kernel
  obtain ⟨hrewrite, hback, hagain⟩ := faithful.2.2 wordyText plainRecord hread
  exact ⟨hread, hrewrite, by decide +kernel, hback, hagain⟩

end Gatekeeper.Record
