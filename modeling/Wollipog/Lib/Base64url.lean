import Wollipog.Lib.JsonUtf8
/-!
# Base64url — a value as text of one line

Bytes as base64url text without padding, and the values that go through it: a value's JSON, as UTF-8, as base64url.
-/
namespace Base64url

open Json (CodeUnit Text)

def symbol (v : ℕ) : CodeUnit :=
  Fin.ofNat 65536 (if v < 26 then 65 + v else if v < 52 then 71 + v else if v < 62 then v - 4 else if v = 62 then 45 else 95)

def sextet (c : CodeUnit) : Option ℕ :=
  if 65 ≤ c.val ∧ c.val ≤ 90 then some (c.val - 65)
  else if 97 ≤ c.val ∧ c.val ≤ 122 then some (c.val - 71)
  else if 48 ≤ c.val ∧ c.val ≤ 57 then some (c.val + 4)
  else if c.val = 45 ∨ c.val = 43 then some 62
  else if c.val = 95 ∨ c.val = 47 then some 63
  else none

/-- `toString("base64url")` -/
def encode : List ℕ → Text
  | [] => []
  | [a] => [symbol (a / 4), symbol (a % 4 * 16)]
  | [a, b] => [symbol (a / 4), symbol (a % 4 * 16 + b / 16), symbol (b % 16 * 4)]
  | a :: b :: c :: r =>
    symbol (a / 4) :: symbol (a % 4 * 16 + b / 16) :: symbol (b % 16 * 4 + c / 64) :: symbol (c % 64) :: encode r

def octets : List ℕ → List ℕ
  | [] => []
  | [_] => []
  | [a, b] => [a * 4 + b / 16]
  | [a, b, c] => [a * 4 + b / 16, b % 16 * 16 + c / 4]
  | a :: b :: c :: d :: r => (a * 4 + b / 16) :: (b % 16 * 16 + c / 4) :: (c % 4 * 64 + d) :: octets r

/-- `Buffer.from(text, "base64url")`; a unit of neither alphabet is skipped. -/
def decode (s : Text) : List ℕ := octets (s.filterMap sextet)

theorem sextet_symbol {v : ℕ} (h : v < 64) : sextet (symbol v) = some v := by
  have hall : ∀ v : Fin 64, sextet (symbol v.val) = some v.val := by decide
  exact hall ⟨v, h⟩

theorem decode_encode : ∀ {bytes : List ℕ}, (∀ b ∈ bytes, b < 256) → decode (encode bytes) = bytes
  | [], _ => rfl
  | [a], h => by
    have ha := h a List.mem_cons_self
    have h1 := sextet_symbol (v := a / 4) (by omega)
    have h2 := sextet_symbol (v := a % 4 * 16) (by omega)
    have hbyte : a / 4 * 4 + a % 4 * 16 / 16 = a := by omega
    rw [decode, encode, List.filterMap_cons_some h1, List.filterMap_cons_some h2, List.filterMap_nil, octets, hbyte]
  | [a, b], h => by
    have ha := h a List.mem_cons_self
    have hb := h b (List.mem_cons_of_mem _ List.mem_cons_self)
    have h1 := sextet_symbol (v := a / 4) (by omega)
    have h2 := sextet_symbol (v := a % 4 * 16 + b / 16) (by omega)
    have h3 := sextet_symbol (v := b % 16 * 4) (by omega)
    have hfirst : a / 4 * 4 + (a % 4 * 16 + b / 16) / 16 = a := by omega
    have hsecond : (a % 4 * 16 + b / 16) % 16 * 16 + b % 16 * 4 / 4 = b := by omega
    rw [decode, encode, List.filterMap_cons_some h1, List.filterMap_cons_some h2, List.filterMap_cons_some h3, List.filterMap_nil,
      octets, hfirst, hsecond]
  | a :: b :: c :: r, h => by
    have ha := h a List.mem_cons_self
    have hb := h b (List.mem_cons_of_mem _ List.mem_cons_self)
    have hc := h c (List.mem_cons_of_mem _ (List.mem_cons_of_mem _ List.mem_cons_self))
    have h1 := sextet_symbol (v := a / 4) (by omega)
    have h2 := sextet_symbol (v := a % 4 * 16 + b / 16) (by omega)
    have h3 := sextet_symbol (v := b % 16 * 4 + c / 64) (by omega)
    have h4 := sextet_symbol (v := c % 64) (by omega)
    have hfirst : a / 4 * 4 + (a % 4 * 16 + b / 16) / 16 = a := by omega
    have hsecond : (a % 4 * 16 + b / 16) % 16 * 16 + (b % 16 * 4 + c / 64) / 4 = b := by omega
    have hthird : (b % 16 * 4 + c / 64) % 4 * 64 + c % 64 = c := by omega
    have hrest := @decode_encode r (fun x hx => h x
      (List.mem_cons_of_mem _ (List.mem_cons_of_mem _ (List.mem_cons_of_mem _ hx))))
    rw [decode] at hrest
    rw [decode, encode, List.filterMap_cons_some h1, List.filterMap_cons_some h2, List.filterMap_cons_some h3,
      List.filterMap_cons_some h4, octets, hfirst, hsecond, hthird, hrest]

open Json (Number Value)

/-- `Buffer.from(JSON.stringify(value)).toString("base64url")` -/
def write (v : Value) : Text := encode (Utf8.encode (Json.stringify v))

/-- `JSON.parse(Buffer.from(text, "base64url").toString("utf8"))` -/
def read (toDouble : Number → Number) (s : Text) : Option Value := Json.parse toDouble (Utf8.decode (decode s))

/-- **What is written is read back.** -/
theorem read_write {toDouble : Number → Number} {v : Value} (h : v.Wf toDouble) :
    read toDouble (write v) = some (Json.arranged id v) := by
  rw [read, write, decode_encode (Utf8.encode_lt _), Utf8.decode_encode_wellFormed (Utf8.wellFormed_stringify v),
    Json.parse_stringify toDouble h]

end Base64url
