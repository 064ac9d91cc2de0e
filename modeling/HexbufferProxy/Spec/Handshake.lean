import HexbufferProxy.Spec.Scanners

/-!
# Which requests ask for WebSocket

The Upgrade fields list `websocket`, and the Connection fields list `upgrade`, each on any number
of lines and in any case. `is_websocket_upgrade` looks for the letters of the words in the first
value of each.
-/

namespace HexbufferProxy

open Rust

/-- **The request asks for WebSocket.** -/
def AsksUpgrade (m : HeaderMap) : Prop :=
  "websocket".toList ∈ listed m upgradeName ∧ "upgrade".toList ∈ listed m connectionName

instance (m : HeaderMap) : Decidable (AsksUpgrade m) := inferInstanceAs (Decidable (_ ∧ _))

/-- The lower-case elements of a value. -/
def words (v : HeaderValue) : List Str := (elements [fromUtf8Lossy v.1]).map (·.map Char.toLower)

section

variable (m : HeaderMap) (n : HeaderName) (word : Str)

/-- **The word stands first**: it is an element of the first value, which is visible ASCII. -/
def StandsFirst : Prop :=
  ∃ v vs, m.values n = v :: vs ∧ v.toStr.isSome = true ∧ word ∈ words v

/-- **It stands later**: it is an element of a value behind the first, or of a first value that has
other octets. -/
def StandsLater : Prop :=
  ∃ v vs, m.values n = v :: vs ∧
    ((∃ v' ∈ vs, word ∈ words v') ∨ v.toStr.isSome = false ∧ word ∈ words v)

/-- **It stands inside another**: it is a proper part of an element of the first value, which is
visible ASCII. -/
def StandsInside : Prop :=
  ∃ v vs, m.values n = v :: vs ∧ v.toStr.isSome = true ∧
    ∃ e ∈ words v, ∃ a b, e = a ++ word ++ b ∧ (a ≠ [] ∨ b ≠ [])

/-- It stands later and nowhere else. -/
def OnlyLater : Prop :=
  StandsLater m n word ∧ ¬ StandsFirst m n word ∧ ¬ StandsInside m n word

/-- It stands inside another and nowhere else. -/
def OnlyInside : Prop :=
  StandsInside m n word ∧ ¬ StandsFirst m n word ∧ ¬ StandsLater m n word

end

/-- Both words stand first or later, and one of them only later. -/
def MissedUpgrade (m : HeaderMap) : Prop :=
  OnlyLater m upgradeName "websocket".toList ∧
      (StandsFirst m connectionName "upgrade".toList ∨
        StandsLater m connectionName "upgrade".toList) ∨
    (StandsFirst m upgradeName "websocket".toList ∨
        StandsLater m upgradeName "websocket".toList) ∧
      OnlyLater m connectionName "upgrade".toList

/-- Both words stand first or inside others, and one of them only inside another. -/
def MistakenUpgrade (m : HeaderMap) : Prop :=
  OnlyInside m upgradeName "websocket".toList ∧
      (StandsFirst m connectionName "upgrade".toList ∨
        StandsInside m connectionName "upgrade".toList) ∨
    (StandsFirst m upgradeName "websocket".toList ∨
        StandsInside m upgradeName "websocket".toList) ∧
      OnlyInside m connectionName "upgrade".toList

end HexbufferProxy
