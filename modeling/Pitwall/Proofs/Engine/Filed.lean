import Pitwall.Proofs.Board.Bare
import Pitwall.Proofs.Engine.Driving
import Pitwall.Proofs.Engine.Run

/-!
# No record is lost or doubled between the maps

Connected drivers and filed records fit together in every state of the engine:
**`Engine.filed_run`**. Events on the track keep the fit because they touch active sheets only,
which are not filed; drivers who come are synced, drivers who leave take their own files along
at most, and a snapshot is filed afresh.
-/

namespace Pitwall

namespace Board

/-- Active sheets are not filed, so what happens to them does not disturb the fit. -/
theorem Filed.driven {b c : Board} {lapper : Option Guid} (h : b.Filed) (hd : b.Driven c lapper) :
    c.Filed := by
  refine ⟨?_, ?_, ?_⟩
  · intro g c' hc
    obtain ⟨d, hb, hcont⟩ := hd.before hc
    exact hcont.guid.trans (h.own g d hb)
  · intro g c' hc
    obtain ⟨d, hb, hcont⟩ := hd.before hc
    have hline := h.inLine g d hb
    refine ⟨?_, ?_⟩
    · rw [hd.files, hcont.model]
      exact hline.active
    · -- a car that is not driven now was not driven before, and its sheet has stayed
      intro m s hm hs
      rw [hcont.model] at hm
      rw [hcont.idle m hm] at hs
      rw [hd.files]
      exact hline.idle m s hm hs
  · intro k r hr
    rw [hd.files] at hr
    exact h.slots k r hr

theorem filed_empty : ({} : Board).Filed :=
  ⟨fun _ _ h => (nomatch h), fun _ _ h => (nomatch h), fun _ _ h => (nomatch h)⟩

theorem filed_resync (s : Snapshot) (earlier : Table Guid Marker) :
    ((ofSnapshot s).takeOverMarkers earlier).Filed := by
  refine (filed_ofSnapshot s).congr ?_ ?_
  · intro g
    rw [connected_takeOverMarkers]
  · intro k
    rw [disconnected_takeOverMarkers]

end Board

namespace Engine

theorem filed_disconnect {e : Engine} (h : e.board.Filed) (guid : Guid) :
    (e.disconnect guid).1.board.Filed :=
  disconnect_induction (P := fun p => p.1.board.Filed) h (fun _ _ => h.purge guid)
    fun _ hd => h.removeAndFile hd

theorem filed_merge {e : Engine} (h : e.board.Filed) (now : Instant) (ev : Event) :
    (e.merge now ev).1.board.Filed := by
  by_cases hev : ev.rearranges = false
  · -- everything that happens on the track at once
    exact h.driven (e.driven_merge now hev)
  · cases ev with
    | snapshot s => exact Board.filed_resync s e.board.markers
    | newConnection car => exact h.connect car now
    | connectionClosed car => exact e.filed_disconnect h car.guid
    | _ => exact absurd rfl hev

theorem filed_tick {e : Engine} (h : e.board.Filed) (t : Tick) (now : Instant) :
    (e.tick t now).1.board.Filed := by
  simp only [tick]
  split
  · exact h
  · cases t with
    | progress => exact h
    | standings =>
        -- sorting moves entries and changes no lookup
        refine h.congr ?_ ?_
        · intro g
          exact Keyed.get?_arrange _ _ g
        · intro k
          exact Keyed.get?_arrange _ _ k
    | feeds => exact h

theorem filed_react {e : Engine} (h : e.board.Filed) (i : Input) :
    (e.react i).1.board.Filed := by
  cases i with
  | event ev now => exact filed_merge (e := { e with lastAppliedAt := some now }) h now ev
  | tick t now => exact filed_tick h t now
  | reset => exact Board.filed_empty

theorem Reachable.filed {e : Engine} (h : e.Reachable) : e.board.Filed :=
  h.induction (I := fun e => e.board.Filed) Board.filed_empty (fun _ i h => filed_react h i)

/-- **CONNECTED DRIVERS AND FILES FIT TOGETHER** in every state that a run of events, periodic
jobs and resets leads to: a connected record bears its own GUID, its active car is not filed,
each other car of it is filed with the same lap sheet, and a filed record bears its own slot. -/
theorem filed_run (inputs : List Input) : (initial.run inputs).board.Filed :=
  Reachable.filed ⟨inputs, rfl⟩

end Engine

end Pitwall
