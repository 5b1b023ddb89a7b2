import Mathlib.Data.List.Nodup
import Pitwall.Display.View
import Pitwall.Proofs.Engine.Numbering
import Pitwall.Proofs.Text.Digits

/-!
# Cards — every collision has a card of its own

The name of a card is made of the driver's GUID and the number of the collision. A GUID may hold
anything, also what looks like the end of such a name, but the number is what stands behind the last
character that is no digit, so the name tells both (**`Alert.cardId_injective`**). The alerts that
are held differ in driver or number, whatever the engine has met with, and only some of them are
shown: **`View.cards_told_apart`**.
-/

namespace Pitwall

namespace Alert

theorem toList_cardId (i : AlertId) :
    (cardId i).toList =
      i.guid.text.toList ++ "-collision".toList ++ '-' :: Text.decimal i.number.toNat := by
  have hword : "-collision-".toList = "-collision".toList ++ ['-'] := by decide
  have hnumber : (String.ofList (Text.decimal i.number.toNat)).toList =
    Text.decimal i.number.toNat := String.toList_ofList
  rw [cardId, String.toList_append, String.toList_append, hnumber, hword]
  simp only [List.append_assoc, List.singleton_append]

/-- **THE NAME OF A CARD** tells driver and number apart, whatever the GUID looks like. -/
theorem cardId_injective : Function.Injective cardId := by
  rintro ⟨⟨text⟩, number⟩ ⟨⟨text'⟩, number'⟩ h
  have hchars := congrArg String.toList h
  rw [toList_cardId, toList_cardId] at hchars
  obtain ⟨hfront, hnumber⟩ := Text.append_digits_inj (by decide)
    (fun _ => Text.isDigit_of_mem_decimal) (fun _ => Text.isDigit_of_mem_decimal) hchars
  have htext : text = text' := String.toList_inj.1 (List.append_cancel_right hfront)
  have hsame : number = number' := UInt32.toNat_inj.1 (Text.decimal_injective hnumber)
  rw [htext, hsame]

end Alert

namespace Alerts

/-- What is shown is held. -/
theorem shown_sublist_held (a : Alerts) (now : Instant) : (a.shown now).Sublist a.held := by
  have hheld : a.held = a.entries.values.map AlertEntry.alert := by
    rw [held, Table.values, List.map_map]
    rfl
  rw [hheld]
  exact List.filter_sublist.map _

end Alerts

namespace View

/-- **CARDS ARE TOLD APART**: in every state that the engine can get into and at any time, no two of
the cards that are shown have the same name, whatever characters the GUIDs hold, and for every alert
that is shown exactly one card has its name. -/
theorem cards_told_apart {e : Engine} (h : e.Reachable) (unit : SpeedUnit) (now : Instant) :
    let cards := (View.mk e unit now).collisions
    (cards.map AlertCard.id).Nodup ∧
      ∀ x ∈ e.alerts.shown now, ∃! card, card ∈ cards ∧ card.id = Alert.cardId x.id := by
  intro cards
  have hids : ((e.alerts.shown now).map Alert.id).Nodup :=
    h.sound.ids.sublist ((e.alerts.shown_sublist_held now).map Alert.id)
  have hnames : (cards.map AlertCard.id).Nodup := by
    have hmap : cards.map AlertCard.id =
        ((e.alerts.shown now).map Alert.id).map Alert.cardId := by
      show ((e.alerts.shown now).map _).map AlertCard.id = _
      rw [List.map_map, List.map_map]
      rfl
    rw [hmap]
    exact hids.map Alert.cardId_injective
  refine ⟨hnames, fun x hx => ⟨x.card unit, ⟨List.mem_map_of_mem hx, rfl⟩, ?_⟩⟩
  rintro card ⟨hcard, hname⟩
  exact List.inj_on_of_nodup_map hnames hcard (List.mem_map_of_mem hx) hname

/-- The GUID of one driver is the name of a card of the other. -/
theorem cards_told_apart_of_misleading_guid :
    let now : Instant := ⟨63000000000, 0, by decide, by decide, by decide, by decide⟩
    let ann : CarInfo := { carId := 1, driverName := "Ann", guid := ⟨"a"⟩, model := "m3" }
    let bob : CarInfo :=
      { carId := 2, driverName := "Bob", guid := ⟨"a-collision-0"⟩, model := "m3" }
    let e := Engine.initial.run
      [.event (.newConnection ann) now, .event (.newConnection bob) now,
       .event (.collision { carId := 1, impact := .environment }) now,
       .event (.collision { carId := 2, impact := .environment }) now]
    let cards := (View.mk e .kmh now).collisions
    e.Reachable ∧ cards.map AlertCard.id = ["a-collision-0", "a-collision-0-collision-0"] ∧
      (cards.map AlertCard.id).Nodup := by
  intro now ann bob e cards
  have he : e.Reachable := ⟨_, rfl⟩
  exact ⟨he, by decide +kernel, (cards_told_apart he .kmh now).1⟩

end View

end Pitwall
