import Mathlib.Data.List.Induction
import Pitwall.Proofs.Feed.Alerts
import Pitwall.Proofs.Feed.Held

/-!
# Numbers — which collisions of a driver count as announced

Alerts tell the collisions of a driver apart by their numbers. What is held comes from what has been
offered (**`Alerts.Sound.mem_held_offerAll`**), and a collision that is offered as it happens is
announced exactly if its number is not held: **`Alerts.Sound.announces_offer`**.
-/

namespace Pitwall

/-- No time passes between an instant and itself. -/
theorem Instant.elapsed_self (t : Instant) : t.elapsed t = 0 := by
  have hleap : t.leapBetween t = 0 := by
    rw [leapBetween, if_neg (fun h => absurd h.1 (Int.lt_irrefl _)),
      if_neg (fun h => absurd h.1 (Int.lt_irrefl _))]
  rw [elapsed, hleap]
  omega

namespace Alerts

variable {a : Alerts} {g : Guid} {n : UInt32}

/-- The numbers of a driver's collisions that are held. -/
def numbersOf (a : Alerts) (g : Guid) : List UInt32 :=
  (a.held.filter (fun x => x.guid = g)).map (·.collision.id)

theorem mem_numbersOf : n ∈ a.numbersOf g ↔ ∃ x ∈ a.held, x.id = ⟨g, n⟩ := by
  simp only [numbersOf, List.mem_map, List.mem_filter, decide_eq_true_eq, Alert.id, AlertId.mk.injEq,
    and_assoc]

/-- The alerts stay in order when any are offered. -/
theorem Sound.offerAll (h : a.Sound) (offers : List Alert) (now : Instant) :
    (a.offerAll offers now).1.Sound := by
  induction offers using List.reverseRecOn with
  | nil => exact h
  | append_singleton offers o ih =>
      rw [offerAll_concat]
      exact ih.offer o now

/-- What is held after an offer was held before, or it is what was offered. -/
theorem Sound.mem_held_offer (h : a.Sound) {o x : Alert} {now : Instant}
    (hx : x ∈ (a.offer o now).1.held) : x ∈ a.held ∨ x = o := by
  rcases a.offer_cases o now with hsame | ⟨hnew, -, htaken⟩
  · rw [hsame] at hx
    exact Or.inl hx
  · have hperm := h.held_offer hnew (congrArg (fun p => p.1.entries) htaken)
    exact (List.mem_cons.1 (hperm.mem_iff.1 hx)).symm

theorem Sound.mem_numbersOf_offer (h : a.Sound) {o : Alert} {now : Instant}
    (hn : n ∈ (a.offer o now).1.numbersOf g) : n ∈ a.numbersOf g ∨ o.id = ⟨g, n⟩ := by
  obtain ⟨x, hx, hid⟩ := mem_numbersOf.1 hn
  rcases h.mem_held_offer hx with hx | rfl
  · exact Or.inl (mem_numbersOf.2 ⟨x, hx, hid⟩)
  · exact Or.inr hid

theorem Sound.mem_held_offerAll (h : a.Sound) {offers : List Alert} {x : Alert} {now : Instant}
    (hx : x ∈ (a.offerAll offers now).1.held) : x ∈ a.held ∨ x ∈ offers := by
  induction offers using List.reverseRecOn with
  | nil => exact Or.inl hx
  | append_singleton offers o ih =>
      rw [offerAll_concat] at hx
      rcases (h.offerAll offers now).mem_held_offer hx with hx | rfl
      · exact (ih hx).imp_right (List.mem_append_left _)
      · exact Or.inr (List.mem_append_right _ List.mem_cons_self)

/-- A sweep lets numbers go and brings no new ones. -/
theorem mem_numbersOf_of_sweep {now : Instant} (hn : n ∈ (a.sweep now).1.numbersOf g) :
    n ∈ a.numbersOf g := by
  obtain ⟨x, hx, hid⟩ := mem_numbersOf.1 hn
  refine mem_numbersOf.2 ⟨x, ?_, hid⟩
  rw [a.held_eq_append_sweep now]
  exact List.mem_append_right _ hx

/-- A collision of a driver is announced: no collision of the driver with its number is held before,
and the collision itself is held after. -/
structure Announces (before after : Alerts) (g : Guid) (r : Collision) : Prop where
  fresh : ∀ x ∈ before.held, x.guid = g → x.collision.id ≠ r.id
  held : ∃ x ∈ after.held, x.guid = g ∧ x.collision = r

theorem Sound.contains_seen_iff (h : a.Sound) (x : Alert) :
    a.seen.contains x.id = true ↔ x.collision.id ∈ a.numbersOf x.guid := by
  rw [h.seen, List.mem_map, mem_numbersOf]
  rfl

/-- A collision that is offered as it happens is taken up if its number is not held. -/
theorem Sound.held_offer_of_new (h : a.Sound) {x : Alert}
    (hnew : x.collision.id ∉ a.numbersOf x.guid) :
    (a.offer x x.collision.time).1.held.Perm (x :: a.held) := by
  have hunseen : a.seen.contains x.id = false := by
    rw [← Bool.not_eq_true, h.contains_seen_iff]
    exact hnew
  have hfresh : decide (shownFor ≤ age x x.collision.time) = false := by
    rw [age, Instant.elapsed_self]
    rfl
  refine h.held_offer hunseen ?_
  rw [Alerts.offer, hunseen, hfresh]
  rfl

/-- So it is announced exactly if its number is not held; otherwise nothing changes. -/
theorem Sound.announces_offer (h : a.Sound) (x : Alert) :
    (a.Announces (a.offer x x.collision.time).1 x.guid x.collision ↔
        x.collision.id ∉ a.numbersOf x.guid) ∧
      (x.collision.id ∈ a.numbersOf x.guid → (a.offer x x.collision.time).1 = a) := by
  refine ⟨⟨?old, ?new⟩, ?same⟩
  case old =>
    intro hann hmem
    obtain ⟨y, hy, hid⟩ := mem_numbersOf.1 hmem
    exact hann.fresh y hy (congrArg AlertId.guid hid) (congrArg AlertId.number hid)
  case new =>
    intro hnew
    constructor
    · intro y hy hguid hnumber
      refine hnew (mem_numbersOf.2 ⟨y, hy, ?_⟩)
      rw [Alert.id, hguid, hnumber]
    · exact ⟨x, (h.held_offer_of_new hnew).mem_iff.2 List.mem_cons_self, rfl, rfl⟩
  case same =>
    intro hmem
    have hsettled : a.Settled x.collision.time x := Or.inl ((h.contains_seen_iff x).2 hmem)
    rw [hsettled.offer_eq]

end Alerts

end Pitwall
