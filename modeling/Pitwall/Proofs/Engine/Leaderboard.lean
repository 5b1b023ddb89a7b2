import Pitwall.Proofs.Engine.Onward

/-!
# Leaderboards — how laps are merged

The leaderboard that comes with a completed lap raises the laps of connected drivers, line by line.
Each line takes the greater of two counts, so a record ends up with the greatest of its own laps and
those of all lines about its driver (**`Board.get?_foldl_raiseLaps_eq`**). The greatest of some
counts does not depend on their order, nor on how often they occur, and neither does the board:
**`Board.foldl_raiseLaps_congr`**. What that means for a lap is **`Engine.leaderboard_merged`**.
-/

namespace Pitwall

section Max

variable {α : Type} [Max α] [LE α] [Std.IsLinearOrder α] [Std.LawfulOrderMax α]

/-- The greatest of some values goes by which values there are. -/
theorem foldl_max_congr {ks ls : List α} (h : ∀ x, x ∈ ks ↔ x ∈ ls) (k : α) :
    ks.foldl max k = ls.foldl max k := by
  have hmax : (k :: ls).max? = some (ls.foldl max k) := List.max?_cons'
  obtain ⟨hmem, hle⟩ := List.max?_eq_some_iff.1 hmax
  have hsame : ∀ x, x ∈ k :: ks ↔ x ∈ k :: ls := fun x => by
    rw [List.mem_cons, List.mem_cons, h]
  have hmax' : (k :: ks).max? = some (ls.foldl max k) :=
    List.max?_eq_some_iff.2 ⟨(hsame _).2 hmem, fun x hx => hle x ((hsame x).1 hx)⟩
  exact Option.some.inj (List.max?_cons'.symm.trans hmax')

end Max

/-- The greatest of some words is the greatest of the numbers in them. -/
theorem max?_map_toNat {ns : List UInt32} {n : UInt32} (h : ns.max? = some n) :
    (ns.map UInt32.toNat).max? = some n.toNat := by
  obtain ⟨hmem, hle⟩ := List.max?_eq_some_iff.1 h
  refine List.max?_eq_some_iff.2 ⟨List.mem_map_of_mem hmem, fun x hx => ?_⟩
  obtain ⟨k, hk, rfl⟩ := List.mem_map.1 hx
  exact UInt32.le_iff_toNat_le.1 (hle k hk)

namespace Board

/-- The lines of a leaderboard that are about a connected driver. -/
def linesOf (b : Board) (g : Guid) (lines : List LeaderboardLine) : List LeaderboardLine :=
  lines.filter (fun line => b.occupant? line.carId = some g)

variable (b : Board) (g : Guid)

/-- Who is in which place goes by the places and by who is connected. -/
theorem occupant?_congr {b c : Board} (hcars : c.cars = b.cars)
    (hkeys : c.connected.keys = b.connected.keys) : c.occupant? = b.occupant? := by
  have hcontains : c.connected.contains = b.connected.contains := by
    funext a
    rw [Keyed.contains, Keyed.contains, hkeys]
  funext car
  rw [occupant?, occupant?, hcars, hcontains]

theorem keys_setDriver (d : Driver) : (b.setDriver g d).connected.keys = b.connected.keys :=
  Keyed.keys_modify _ _ _

theorem keys_raiseLaps (line : LeaderboardLine) :
    (b.raiseLaps line).connected.keys = b.connected.keys := by
  rw [raiseLaps]
  split
  · rfl
  · next key d hat => exact b.keys_setDriver key _

theorem keys_foldl_raiseLaps (lines : List LeaderboardLine) :
    (lines.foldl raiseLaps b).connected.keys = b.connected.keys := by
  induction lines generalizing b with
  | nil => rfl
  | cons line lines ih => rw [List.foldl_cons, ih, keys_raiseLaps]

/-- A leaderboard puts nobody into another place. -/
theorem occupant?_raiseLaps (line : LeaderboardLine) : (b.raiseLaps line).occupant? = b.occupant? := by
  refine occupant?_congr ?_ (b.keys_raiseLaps line)
  rw [raiseLaps]
  split <;> rfl

/-- **ONE LINE** raises the laps of the driver it is about, and of nobody else. -/
theorem get?_raiseLaps_eq (line : LeaderboardLine) :
    (b.raiseLaps line).connected.get? g = (b.connected.get? g).map (fun d =>
      if b.occupant? line.carId = some g then d.raiseLaps line.laps else d) := by
  rw [raiseLaps]
  split
  · next hat =>
    have hnobody : b.occupant? line.carId ≠ some g := by
      intro h
      obtain ⟨d, hd⟩ := occupant?_eq_some_iff.1 h
      rw [hat] at hd
      cases hd
    simp only [if_neg hnobody]
    exact Option.map_id'.symm
  · next key c hat =>
    have hkey : b.occupant? line.carId = some key := occupant?_eq_some_iff.2 ⟨c, hat⟩
    rw [get?_setDriver, hkey]
    by_cases hg : g = key
    · subst hg
      simp only [if_true, (atCar?_eq_some_iff.1 hat).2, Option.map_some]
    · have hne : some key ≠ some g := fun h => hg (Option.some.inj h).symm
      simp only [if_neg hg, if_neg hne]
      exact Option.map_id'.symm

/-- **ALL LINES** raise the laps of a driver to the greatest of those that there are and those that
the lines about the driver tell. -/
theorem get?_foldl_raiseLaps_eq (lines : List LeaderboardLine) :
    (lines.foldl raiseLaps b).connected.get? g = (b.connected.get? g).map (fun d =>
      { d with
        totalLaps := ((b.linesOf g lines).map (·.laps.toUInt32)).foldl max d.totalLaps }) := by
  induction lines generalizing b with
  | nil => exact Option.map_id'.symm
  | cons line lines ih =>
      have hrest : (b.raiseLaps line).linesOf g lines = b.linesOf g lines := by
        rw [linesOf, linesOf, occupant?_raiseLaps]
      rw [List.foldl_cons, ih, hrest, get?_raiseLaps_eq, Option.map_map]
      by_cases hg : b.occupant? line.carId = some g
      · have hlines : b.linesOf g (line :: lines) = line :: b.linesOf g lines :=
          List.filter_cons_of_pos (decide_eq_true hg)
        simp only [Function.comp_def, if_pos hg, hlines]
        rfl
      · have hlines : b.linesOf g (line :: lines) = b.linesOf g lines :=
          List.filter_cons_of_neg (by simpa using hg)
        simp only [Function.comp_def, if_neg hg, hlines]

/-- **A LEADERBOARD GOES BY ITS LINES ALONE**, not by their order and not by how often they occur. -/
theorem foldl_raiseLaps_congr {ks ls : List LeaderboardLine} (h : ∀ x, x ∈ ks ↔ x ∈ ls) :
    ks.foldl raiseLaps b = ls.foldl raiseLaps b := by
  have hconnected : (ks.foldl raiseLaps b).connected = (ls.foldl raiseLaps b).connected := by
    refine Keyed.ext_get? ?_ fun g => ?_
    · rw [keys_foldl_raiseLaps, keys_foldl_raiseLaps]
    · have htold : ∀ n, n ∈ (b.linesOf g ks).map (·.laps.toUInt32) ↔
          n ∈ (b.linesOf g ls).map (·.laps.toUInt32) := fun n => by
        simp only [linesOf, List.mem_map, List.mem_filter, h]
      simp only [get?_foldl_raiseLaps_eq, foldl_max_congr htold]
  rw [foldl_raiseLaps_eq b ks, foldl_raiseLaps_eq b ls, hconnected]

end Board

namespace Engine

/-- A lap is recorded, and then its leaderboard is merged. -/
theorem apply_lapCompleted {e : Engine} {l : LapReport} {g : Guid} {d : Driver}
    (hd : e.board.atCar? l.carId = some (g, d)) (now : Instant) :
    e.apply (.lapCompleted l) now =
      ({ e with
          lastAppliedAt := some now
          board := l.leaderboard.foldl Board.raiseLaps (e.board.setDriver g (d.completeLap l now)) },
        .changed [.lapCompleted d.guid]) := by
  show completeLap { e with lastAppliedAt := some now } l now = _
  rw [completeLap, withCar_of_atCar? (e := { e with lastAppliedAt := some now }) hd]
  rfl

/-- **A LEADERBOARD IS MERGED WHATEVER ITS ORDER**: a connected driver completes a lap, and the lap
comes with any lines, about any places. Then nobody comes or goes, and the laps of each connected
driver are the greatest of those of before, with one more for the driver of the lap, and of those
that the lines about the driver tell. Lines that are the same up to order and repetition make the
same engine and announce the same, and merging them a second time changes nothing. -/
theorem leaderboard_merged {e : Engine} {l : LapReport} {g : Guid} {d : Driver}
    (hd : e.board.atCar? l.carId = some (g, d)) (hroom : d.totalLaps.toNat + 1 < UInt32.size)
    (now : Instant) :
    let after := (e.apply (.lapCompleted l) now).1.board
    after.connected.keys = e.board.connected.keys ∧
    (∀ h r, e.board.connected.get? h = some r → ∃ r', after.connected.get? h = some r' ∧
      ((r.totalLaps.toNat + if h = g then 1 else 0) ::
        (e.board.linesOf h l.leaderboard).map (·.laps.toNat)).max? = some r'.totalLaps.toNat) ∧
    (∀ lines, (∀ x, x ∈ lines ↔ x ∈ l.leaderboard) →
      e.apply (.lapCompleted { l with leaderboard := lines }) now =
        e.apply (.lapCompleted l) now) ∧
    l.leaderboard.foldl Board.raiseLaps after = after := by
  intro after
  let b := e.board.setDriver g (d.completeLap l now)
  have hafter : after = l.leaderboard.foldl Board.raiseLaps b :=
    congrArg (·.1.board) (apply_lapCompleted hd now)
  have hkeys : b.connected.keys = e.board.connected.keys := e.board.keys_setDriver g _
  refine ⟨?order, ?laps, ?lines, ?again⟩
  case order => rw [hafter, Board.keys_foldl_raiseLaps, hkeys]
  case laps =>
    intro h r hr
    have hlines : b.linesOf h l.leaderboard = e.board.linesOf h l.leaderboard := by
      rw [Board.linesOf, Board.linesOf,
        Board.occupant?_congr (b := e.board) (c := b) rfl hkeys]
    -- the record that the leaderboard meets with
    obtain ⟨q, hq, hlaps⟩ : ∃ q, b.connected.get? h = some q ∧
        q.totalLaps.toNat = r.totalLaps.toNat + if h = g then 1 else 0 := by
      rw [Board.get?_setDriver]
      by_cases hg : h = g
      · subst hg
        obtain rfl : d = r := Option.some.inj ((Board.atCar?_eq_some_iff.1 hd).2.symm.trans hr)
        refine ⟨d.completeLap l now, by rw [if_pos rfl, hr]; rfl, ?_⟩
        show (d.totalLaps + 1).toNat = _
        rw [UInt32.toNat_add, if_pos rfl]
        exact Nat.mod_eq_of_lt hroom
      · exact ⟨r, by rw [if_neg hg, hr], by rw [if_neg hg, Nat.add_zero]⟩
    refine ⟨_, by rw [hafter, Board.get?_foldl_raiseLaps_eq, hq, hlines]; rfl, ?_⟩
    rw [← hlaps]
    have hwords : (q.totalLaps :: (e.board.linesOf h l.leaderboard).map (·.laps.toUInt32)).max? =
        some _ := List.max?_cons'
    simpa only [List.map_cons, List.map_map, Function.comp_def, UInt16.toNat_toUInt32]
      using max?_map_toNat hwords
  case lines =>
    intro lines hlines
    rw [apply_lapCompleted hd, apply_lapCompleted (l := { l with leaderboard := lines }) hd]
    exact congrArg (fun c => (({ e with lastAppliedAt := some now, board := c } : Engine), _))
      (b.foldl_raiseLaps_congr hlines)
  case again =>
    rw [hafter, ← List.foldl_append]
    refine b.foldl_raiseLaps_congr fun x => ?_
    rw [List.mem_append, or_self]

/-- Ann completes her first lap. The leaderboard knows three laps of her, tells the laps of Bob
twice, and has a line about a place where nobody is; so does the one that is turned round. -/
theorem leaderboard_merged_of_repeated_lines :
    let ann : CarInfo := { carId := 1, guid := ⟨"a"⟩, model := "m3" }
    let bob : CarInfo := { carId := 2, guid := ⟨"b"⟩, model := "m3" }
    let lines : List LeaderboardLine :=
      [{ carId := 2, laps := 5 }, { carId := 9, laps := 8 }, { carId := 1, laps := 3 },
       { carId := 2, laps := 4 }]
    let lap : LapReport := { carId := 1, leaderboard := lines }
    let e := initial.run [.event (.newConnection ann) .zero, .event (.newConnection bob) .zero]
    let after := (e.apply (.lapCompleted lap) .zero).1.board
    let laps (g : Guid) : Option Nat := (after.connected.get? g).map (·.totalLaps.toNat)
    e.Reachable ∧ laps ⟨"a"⟩ = some 3 ∧ laps ⟨"b"⟩ = some 5 ∧
      e.apply (.lapCompleted { lap with leaderboard := lines.reverse }) .zero =
        e.apply (.lapCompleted lap) .zero ∧
      lines.foldl Board.raiseLaps after = after := by
  intro ann bob lines lap e after laps
  have hd : e.board.atCar? 1 = some (⟨"a"⟩, Driver.ofCar ann .zero) := by decide +kernel
  have hbob : e.board.connected.get? ⟨"b"⟩ = some (Driver.ofCar bob .zero) := by decide +kernel
  have hlines : (e.board.linesOf ⟨"a"⟩ lines).map (·.laps.toNat) = [3] ∧
      (e.board.linesOf ⟨"b"⟩ lines).map (·.laps.toNat) = [5, 4] := by decide +kernel
  obtain ⟨-, hlaps, hsame, hagain⟩ := leaderboard_merged (l := lap) hd (by decide) .zero
  have hget : ∀ g r n, e.board.connected.get? g = some r →
      ((r.totalLaps.toNat + if g = ⟨"a"⟩ then 1 else 0) ::
        (e.board.linesOf g lines).map (·.laps.toNat)).max? = some n → laps g = some n := by
    intro g r n hr hn
    obtain ⟨r', hr', hmax⟩ := hlaps g r hr
    show (after.connected.get? g).map _ = _
    rw [hr', Option.map_some]
    exact hmax.symm.trans hn
  refine ⟨⟨_, rfl⟩, ?_, ?_, hsame lines.reverse fun x => List.mem_reverse, hagain⟩
  · refine hget _ _ _ (Board.atCar?_eq_some_iff.1 hd).2 ?_
    rw [hlines.1]
    rfl
  · refine hget _ _ _ hbob ?_
    rw [hlines.2]
    rfl

end Engine

end Pitwall
