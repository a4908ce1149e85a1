import CacheAside.Proofs.Cache.Permitted

/-! # What may stand under a key

A guard says which texts may stand under which keys. Under its policy only such texts are written and other
commands are free, and a store that holds only such texts goes on doing so. -/

namespace CacheAside
set_option autoImplicit false

variable {holds : String → String → Prop}

/-! ## Stores of such entries -/

namespace Server
variable {I : String → Entry → Prop} {s : Server}

/-- Whether every entry in the store is such an entry. -/
def All (I : String → Entry → Prop) (s : Server) : Prop := ∀ key e, s.find? key = some e → I key e

namespace All

theorem put (h : s.All I) {key : String} {e : Entry} (he : I key e) : (s.put key e).All I := by
  intro key' e' hfind
  rw [find?_put] at hfind
  split at hfind
  · rename_i hkey
    cases hfind
    rw [hkey]
    exact he
  · exact h key' e' hfind

theorem without (h : s.All I) (keys : List String) : (s.without keys).All I := by
  intro key e hfind
  rw [find?_without] at hfind
  split at hfind
  · cases hfind
  · exact h key e hfind

theorem wait (h : s.All I) {n : ℕ} (hI : ∀ key e e', I key e → e.wait n = some e' → I key e') :
    (s.wait n).All I := by
  intro key e' hfind
  rw [find?_wait] at hfind
  obtain ⟨e, he, hlater⟩ := Option.bind_eq_some_iff.1 hfind
  exact hI key e e' (h key e he) hlater

end All
end Server

/-! ## Guards -/

def Policy.guarding (holds : String → String → Prop) : Policy where
  allows
    | .set key text => holds key text
    | .setFor key _ text => holds key text
    | _ => True
  admits
    | .get key, reply => ∀ text, reply = some text → holds key text
    | _, _ => True

/-- Whether every text in the store may stand under its key. -/
def Server.Guarded (holds : String → String → Prop) : Server → Prop := All fun key e => holds key e.text

theorem Policy.upheld_guarding : (Policy.guarding holds).Upheld (Server.Guarded holds) where
  admits s c h hc := by
    cases c with
    | get key =>
      intro text htext
      obtain ⟨e, he, rfl⟩ := Option.map_eq_some_iff.1 htext
      exact h key e he
    | _ => trivial
  apply s c h hc := by
    cases c with
    | set key text => exact h.put hc
    | setFor key seconds text => exact h.put hc
    | remove keys => exact h.without keys
    | _ => exact h
  wait s n h := by
    refine h.wait fun key e e' he hlater => ?_
    rw [Entry.text_wait hlater]
    exact he

theorem Policy.lenient_guarding : (Policy.guarding holds).Lenient := by
  intro c hc
  cases c with
  | set key text => cases hc
  | setFor key seconds text => cases hc
  | _ => trivial

end CacheAside
