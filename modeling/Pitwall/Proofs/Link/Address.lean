import Pitwall.Link.Address
import Pitwall.Proofs.Text.Blank

/-!
# Addresses — which are accepted, and the sockets they stand for

**`Address.StandsFor`** is the grammar of addresses: one of four schemes and a rest that begins with
anything but a slash. The rest stays, and the scheme becomes the one of the socket. An address is
accepted exactly if it stands for a socket once the white space around it is gone
(**`Address.normalise_eq_ok_iff`**). That socket stands for itself, and there is no white space
around it, so it is accepted and stays as it is: **`Address.normalise_by_grammar`**.
-/

namespace Pitwall.Address

open Text

/-- The addresses that are accepted, each with the address of its socket. -/
inductive StandsFor : List Char → List Char → Prop where
  | socket {c : Char} (h : c ≠ '/') (cs : List Char) :
      StandsFor ("ws://".toList ++ c :: cs) ("ws://".toList ++ c :: cs)
  | secureSocket {c : Char} (h : c ≠ '/') (cs : List Char) :
      StandsFor ("wss://".toList ++ c :: cs) ("wss://".toList ++ c :: cs)
  | page {c : Char} (h : c ≠ '/') (cs : List Char) :
      StandsFor ("http://".toList ++ c :: cs) ("ws://".toList ++ c :: cs)
  | securePage {c : Char} (h : c ≠ '/') (cs : List Char) :
      StandsFor ("https://".toList ++ c :: cs) ("wss://".toList ++ c :: cs)

variable {cs socket rest : List Char}

/-! ## Schemes -/

theorem after?_append (beginning rest : List Char) :
    after? beginning (beginning ++ rest) = some rest := by
  induction beginning with
  | nil => rfl
  | cons b bs ih => rw [List.cons_append, after?, if_pos rfl, ih]

theorem eq_append_of_after? {beginning : List Char} (h : after? beginning cs = some rest) :
    cs = beginning ++ rest := by
  induction beginning generalizing cs with
  | nil => exact Option.some.inj h
  | cons b bs ih =>
      cases cs with
      | nil => cases h
      | cons c cs =>
          rw [after?] at h
          split at h
          · next hsame => rw [hsame, ih h, List.cons_append]
          · cases h

theorem isHost_iff : isHost rest = true ↔ ∃ c cs, rest = c :: cs ∧ c ≠ '/' := by
  cases rest with
  | nil => simp [isHost]
  | cons c cs => simp [isHost]

theorem host?_plain (rest : List Char) : host? (plain ++ rest) = some rest := by
  rw [host?, after?_append]
  rfl

/-- The scheme of a secure socket does not begin with that of a plain one. -/
theorem host?_secure (rest : List Char) : host? (secure ++ rest) = some rest := by
  have hother : after? plain (secure ++ rest) = none := rfl
  rw [host?, hother, after?_append]
  rfl

theorem eq_append_of_host? (h : host? cs = some rest) :
    cs = plain ++ rest ∨ cs = secure ++ rest := by
  rw [host?] at h
  rcases Option.or_eq_some_iff.1 h with h | ⟨-, h⟩
  · exact Or.inl (eq_append_of_after? h)
  · exact Or.inr (eq_append_of_after? h)

/-! ## Addresses -/

/-- **THE GRAMMAR** tells what becomes of the scheme, and that a host has to follow. -/
theorem standsFor_iff :
    StandsFor cs socket ↔ socket = exchangeScheme cs ∧ (host? socket).any isHost = true := by
  constructor
  · intro h
    have hhost : ∀ {c : Char} (rest : List Char), c ≠ '/' → isHost (c :: rest) = true :=
      fun rest hc => isHost_iff.2 ⟨_, rest, rfl, hc⟩
    cases h with
    | socket hc rest => exact ⟨rfl, (congrArg _ (host?_plain _)).trans (hhost rest hc)⟩
    | secureSocket hc rest => exact ⟨rfl, (congrArg _ (host?_secure _)).trans (hhost rest hc)⟩
    | page hc rest => exact ⟨rfl, (congrArg _ (host?_plain _)).trans (hhost rest hc)⟩
    | securePage hc rest => exact ⟨rfl, (congrArg _ (host?_secure _)).trans (hhost rest hc)⟩
  · rintro ⟨rfl, h⟩
    rw [exchangeScheme] at h ⊢
    cases hpage : after? plainPage cs with
    | some rest =>
        simp only [hpage, host?_plain, Option.any_some] at h ⊢
        obtain ⟨c, rest, rfl, hc⟩ := isHost_iff.1 h
        rw [eq_append_of_after? hpage]
        exact .page hc rest
    | none =>
        cases hsecure : after? securePage cs with
        | some rest =>
            simp only [hpage, hsecure, host?_secure, Option.any_some] at h ⊢
            obtain ⟨c, rest, rfl, hc⟩ := isHost_iff.1 h
            rw [eq_append_of_after? hsecure]
            exact .securePage hc rest
        | none =>
            -- the scheme is no page's, so it has to be a socket's
            simp only [hpage, hsecure] at h ⊢
            obtain ⟨rest, hrest, h⟩ := (Option.any_eq_true _ _).1 h
            obtain ⟨c, rest, rfl, hc⟩ := isHost_iff.1 h
            rcases eq_append_of_host? hrest with rfl | rfl
            · exact .socket hc rest
            · exact .secureSocket hc rest

/-- The address of a socket stands for itself. -/
theorem StandsFor.self (h : StandsFor cs socket) : StandsFor socket socket := by
  cases h with
  | socket hc rest => exact .socket hc rest
  | secureSocket hc rest => exact .secureSocket hc rest
  | page hc rest => exact .socket hc rest
  | securePage hc rest => exact .secureSocket hc rest

/-- An address and its socket end alike, so there is no white space around the one if there is none
around the other. -/
theorem StandsFor.bare (h : StandsFor cs socket) (hcs : Bare cs) : Bare socket := by
  have hstop : ∀ {scheme scheme' rest : List Char} {c : Char},
      Bare (scheme ++ c :: rest) → ∀ d ∈ (scheme' ++ c :: rest).getLast?, isBlank d = false := by
    intro scheme scheme' rest c hbare d hd
    refine hbare.stop d ?_
    rw [List.getLast?_append_cons] at hd ⊢
    exact hd
  have hstart : ∀ {rest : List Char}, ∀ c ∈ ('w' :: rest).head?, isBlank c = false := by
    intro rest c hc
    obtain rfl := Option.some.inj hc
    decide
  cases h with
  | socket hc rest => exact hcs
  | secureSocket hc rest => exact hcs
  | page hc rest => exact ⟨hstart, hstop hcs⟩
  | securePage hc rest => exact ⟨hstart, hstop hcs⟩

variable {address : String}

/-- **ACCEPTED** are the addresses that stand for a socket, white space around them apart. -/
theorem normalise_eq_ok_iff {socket : String} :
    normalise address = .ok socket ↔ StandsFor (trim address.toList) socket.toList := by
  rw [standsFor_iff, normalise]
  constructor
  · intro h
    split at h
    · next hhost =>
      cases h
      rw [String.toList_ofList]
      exact ⟨rfl, hhost⟩
    · cases h
  · rintro ⟨hsocket, hhost⟩
    rw [← hsocket, if_pos hhost, String.ofList_toList]

/-- All others are refused, and the fault names what is left of them without the white space. -/
theorem normalise_eq_error_iff {fault : Fault} :
    normalise address = .error fault ↔
      (∀ socket, ¬ StandsFor (trim address.toList) socket) ∧
        fault = .invalidAddress (String.ofList (trim address.toList)) := by
  rw [normalise]
  split
  · next hhost =>
    refine iff_of_false (fun h => nomatch h) ?_
    rintro ⟨hnone, -⟩
    exact hnone _ (standsFor_iff.2 ⟨rfl, hhost⟩)
  · next hno =>
    rw [Except.error.injEq, eq_comm, iff_and_self]
    rintro - socket h
    obtain ⟨rfl, hhost⟩ := standsFor_iff.1 h
    exact hno hhost

/-- **ADDRESSES BY THEIR GRAMMAR**: an address is accepted exactly if what is left of it without the
white space around it is one of the four schemes with a rest behind it that does not begin with a
slash. It becomes the same rest behind the scheme of the socket, and that stays as it is when it is
read once more. Of an address that is not accepted the fault names all but the white space. -/
theorem normalise_by_grammar (address : String) :
    (∀ socket, normalise address = .ok socket ↔
        StandsFor (trim address.toList) socket.toList) ∧
      (∀ socket, normalise address = .ok socket → normalise socket = .ok socket) ∧
      ∀ fault, normalise address = .error fault ↔
        (∀ socket, ¬ StandsFor (trim address.toList) socket) ∧
          fault = .invalidAddress (String.ofList (trim address.toList)) := by
  refine ⟨fun _ => normalise_eq_ok_iff, fun socket h => ?_, fun _ => normalise_eq_error_iff⟩
  have hsocket : StandsFor (trim address.toList) socket.toList := normalise_eq_ok_iff.1 h
  have hbare : Bare socket.toList := hsocket.bare (bare_trim address.toList)
  rw [normalise_eq_ok_iff, hbare.trim_eq]
  exact hsocket.self

/-- A scheme behind a scheme belongs to the rest. -/
example : normalise " https://http://host/ " = .ok "wss://http://host/" := by decide +kernel

end Pitwall.Address
