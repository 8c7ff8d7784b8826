import Wollipog.Lib.JsonCanonical
/-!
# Canonical — the stable JSON of a command

The control plane and the runner's two stores digest a command by its canonical text, each with an encoder of its own.
-/
namespace Wollipog.Commands

open Json

/-- What a program holds as JSON: each object has a key once, and its numbers are the ones `toDouble` keeps. -/
structure JsonValue (toDouble : Number → Number) where
  value : Value
  wf : value.Wf toDouble

def DurableCommandStore.canonicalJson (value : Value) : Text := canonical value

def SessionCommandReceiptStore.canonicalJson (value : Value) : Text := canonical value

def canonicalAutomationCommandJson (value : Value) : Text := canonical value

/-- The digest of the canonical text; `sha256` is the hash of its UTF-8 bytes, in hex. -/
def automationCommandDigest (sha256 : Text → String) (command : Value) : String :=
  sha256 (canonicalAutomationCommandJson command)

section

variable {toDouble : Number → Number}

namespace JsonValue

def sorted (v : JsonValue toDouble) : JsonValue toDouble := ⟨arranged byKey v.value, v.wf.arranged moves_byKey v.value⟩

/-- The value that comes back from `JSON.stringify`. -/
def plain (v : JsonValue toDouble) : JsonValue toDouble := ⟨arranged id v.value, v.wf.arranged moves_id v.value⟩

theorem parse_canonical_eq (v : JsonValue toDouble) :
    parse toDouble (canonicalAutomationCommandJson v.value) = some v.sorted.value := parse_canonical v.wf

theorem parse_stringify_eq (v : JsonValue toDouble) : parse toDouble (stringify v.value) = some v.plain.value :=
  parse_stringify toDouble v.wf

theorem canonical_sorted (v : JsonValue toDouble) :
    canonicalAutomationCommandJson v.sorted.value = canonicalAutomationCommandJson v.value :=
  (canonical_eq_of_trips (.single (.canonical (parse_canonical v.wf))) v.wf).2

end JsonValue

end

/-- **The three encoders write one text, the text names the value**, and reading it back, however often, keeps the text
and with it the digest. -/
theorem canonical_text_identifies (toDouble : Number → Number) : (∀ v : JsonValue toDouble,
      DurableCommandStore.canonicalJson v.value = canonicalAutomationCommandJson v.value ∧
        SessionCommandReceiptStore.canonicalJson v.value = canonicalAutomationCommandJson v.value) ∧
    (∀ v w : JsonValue toDouble,
      canonicalAutomationCommandJson v.value = canonicalAutomationCommandJson w.value ↔ Same v.value w.value) ∧
    (∀ v : JsonValue toDouble, ∃ w : JsonValue toDouble,
      parse toDouble (canonicalAutomationCommandJson v.value) = some w.value ∧
        canonicalAutomationCommandJson w.value = canonicalAutomationCommandJson v.value) ∧
    (∀ (v : JsonValue toDouble) (w : Value), Relation.ReflTransGen (Trip toDouble) v.value w →
      canonicalAutomationCommandJson w = canonicalAutomationCommandJson v.value ∧
        (∀ sha256, automationCommandDigest sha256 w = automationCommandDigest sha256 v.value) ∧
        (parse toDouble (stringify w)).isSome = true ∧ (parse toDouble (canonicalAutomationCommandJson w)).isSome = true) := by
  refine ⟨fun v => ⟨rfl, rfl⟩, ?_, ?_, ?_⟩
  · intro v w
    exact canonical_eq_iff v.wf w.wf
  · intro v
    exact ⟨v.sorted, v.parse_canonical_eq, v.canonical_sorted⟩
  · intro v w htrips
    obtain ⟨hwf, htext⟩ := canonical_eq_of_trips htrips v.wf
    have htext' : canonicalAutomationCommandJson w = canonicalAutomationCommandJson v.value := htext
    refine ⟨htext', ?_, ?_, ?_⟩
    · intro sha256
      unfold automationCommandDigest
      rw [htext']
    · have hplain := (JsonValue.mk w hwf).parse_stringify_eq
      rw [hplain]
      rfl
    · have hsorted := (JsonValue.mk w hwf).parse_canonical_eq
      rw [hsorted]
      rfl

end Wollipog.Commands
