import Ollm.Keying.Session
import Ollm.Proxy.Registry

/-!
# Isolation of header sessions

Requests that name their conversation by a header share a session exactly when
their header values have the same normal form.  Requests of different sessions
share no file name, and neither finds a slot of the other hot.
-/

namespace Ollm.Proxy

open Keying

theorem headerKey_eq_iff (v v' : String) :
    "hdr-" ++ String.ofList (normalForm v) = "hdr-" ++ String.ofList (normalForm v') ↔
      normalForm v = normalForm v' := by
  constructor
  · intro same
    have chars := congrArg String.toList same
    simpa only [String.toList_append, List.append_cancel_left_eq, String.toList_ofList]
      using chars
  · intro same
    rw [same]

/-- A slot has one owner, so it is hot for one session only. -/
theorem not_mem_hotSlots_of_ne {g : Registry} {id : SlotId} {key key' : String}
    (distinct : key ≠ key') (hot : id ∈ g.hotSlots key) : id ∉ g.hotSlots key' := by
  rw [Registry.mem_hotSlots] at hot ⊢
  rw [hot]
  exact fun same => distinct (Option.some.inj same)

/-- Header values of different normal forms are different sessions, with
disjoint file names and disjoint hot slots; values of one normal form are one
session. -/
theorem header_sessions_isolated (sha256 : List UInt8 → Digest)
    {headers headers' : HeaderMap} {headerName v v' : String}
    (header : headerSession headers headerName = some v)
    (header' : headerSession headers' headerName = some v') (body body' : Json.Value) :
    ∃ key key', sessionKey sha256 headers body headerName = some key ∧
      sessionKey sha256 headers' body' headerName = some key' ∧
      (key ≠ key' ↔ normalForm v ≠ normalForm v') ∧
      (key ≠ key' →
        (∀ backendSig role role',
          cacheName backendSig key role ≠ cacheName backendSig key' role') ∧
        ∀ (g : Registry) (id : SlotId), id ∈ g.hotSlots key → id ∉ g.hotSlots key') := by
  refine ⟨_, _, sessionKey_of_header sha256 header body,
    sessionKey_of_header sha256 header' body', not_congr (headerKey_eq_iff v v'), ?_⟩
  intro distinct
  refine ⟨fun backendSig role role' same => ?_, fun g id => not_mem_hotSlots_of_ne distinct⟩
  exact distinct (cacheName_inj rfl same).1

def headerOf (value : List UInt8) : HeaderMap :=
  [("x-session-id", value)]

def zeroDigest : Digest :=
  ⟨List.replicate 32 0, rfl⟩

/-- The values `a/b` and `a-b` differ and name one session. -/
theorem slash_header_shares_key :
    headerSession (headerOf [97, 47, 98]) "x-session-id" = some "a/b" ∧
      headerSession (headerOf [97, 45, 98]) "x-session-id" = some "a-b" ∧
      sessionKey (fun _ => zeroDigest) (headerOf [97, 47, 98]) .null "x-session-id" =
        sessionKey (fun _ => zeroDigest) (headerOf [97, 45, 98]) .null "x-session-id" := by
  have slash : headerSession (headerOf [97, 47, 98]) "x-session-id" = some "a/b" := by decide
  have dash : headerSession (headerOf [97, 45, 98]) "x-session-id" = some "a-b" := by decide
  refine ⟨slash, dash, ?_⟩
  rw [sessionKey_of_header _ slash, sessionKey_of_header _ dash]
  decide

theorem plain_headers_isolated :
    ∃ key key', sessionKey (fun _ => zeroDigest) (headerOf [97]) .null "x-session-id" =
        some key ∧
      sessionKey (fun _ => zeroDigest) (headerOf [98]) .null "x-session-id" = some key' ∧
      (key ≠ key' ↔ normalForm "a" ≠ normalForm "b") ∧
      (key ≠ key' →
        (∀ backendSig role role',
          cacheName backendSig key role ≠ cacheName backendSig key' role') ∧
        ∀ (g : Registry) (id : SlotId), id ∈ g.hotSlots key → id ∉ g.hotSlots key') :=
  header_sessions_isolated _ (by decide) (by decide) .null .null

end Ollm.Proxy
