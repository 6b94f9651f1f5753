import FreeSpace.Proofs.CallAnswers
import FreeSpace.Proofs.CallEffects

/-!
# Runs of a page, and its reopening

A run is a list of moves: calls, and changes to a page opened anew on the same record.  All of it is
seen as on the page without kept sizes, which has nothing to lose when it is opened anew.
-/

namespace FreeSpace.SlotPage

open BarePage (Sight AtRowStarts)

/-- A call, or giving up the record of the page and opening it again. -/
inductive Move
  | call (c : Call)
  | reopen
  deriving DecidableEq, Repr

def Move.call? : Move → Option Call
  | call c => some c
  | reopen => none

/-- The calls among these moves. -/
def calls (moves : List Move) : List Call :=
  moves.filterMap Move.call?

/-- What is seen of a run.  Opening a page again is not seen, unless it fails and the page is
lost. -/
def observe : List Move → SlotPage → List Sight
  | [], _ => []
  | .call c :: rest, p =>
      let o := c.action.run p
      .answered o.result o.state.record :: observe rest o.state
  | .reopen :: rest, p =>
      match (ofRecord.run p.record).result with
      | .ok q => observe rest q
      | .error e => [.lost e]

theorem observe_eq_observe_bare {p : SlotPage} (h : Sound p) {moves : List Move}
    (hm : ∀ c ∈ calls moves, AtRowStarts p.record.length c) :
    observe moves p = BarePage.observe (calls moves) p.record := by
  -- A call leaves the page sound, and a page just opened keeps no size that could be wrong.
  induction moves generalizing p with
  | nil => rfl
  | cons m rest ih =>
    cases m with
    | call c =>
      have hc := hm c List.mem_cons_self
      have he := ends_call h hc
      have hlen := (BarePage.effect_respond h.isPage hc).length_eq
      have hrest := ih he.sound fun d hd => by
        rw [he.record, hlen]
        exact hm d (List.mem_cons_of_mem c hd)
      change Sight.answered _ _ :: observe rest _ = Sight.answered _ _ :: _
      rw [hrest, he.result, he.record]
      rfl
    | reopen =>
      have hopen := run_ofRecord h.isPage
      change (match (ofRecord.run p.record).result with | .ok q => _ | .error e => _) = _
      rw [hopen]
      exact ih (sound_unread h.isPage) hm

/-- **The kept sizes cannot be noticed.**  A page answers each call as the page that decodes every
size from the record, and leaves the same record; opening it again at any points of the run
succeeds and changes nothing that is seen. -/
theorem observe_eq_bare {r : Record} {p : SlotPage} (hp : (ofRecord.run r).result = .ok p)
    {moves : List Move} (hm : ∀ c ∈ calls moves, AtRowStarts r.length c) :
    observe moves p = BarePage.observe (calls moves) r ∧
      observe moves p = observe ((calls moves).map .call) p := by
  obtain ⟨hpage, rfl⟩ := ofRecord_eq_ok hp
  have hs := sound_unread hpage
  have hcalls : calls ((calls moves).map .call) = calls moves := by
    unfold calls
    rw [List.filterMap_map]
    exact List.filterMap_some
  have hall := observe_eq_observe_bare hs hm
  refine ⟨hall, ?_⟩
  rw [hall, observe_eq_observe_bare hs (by rwa [hcalls]), hcalls]

/-- A claim, a search and a release with the page opened anew in between. -/
theorem observe_eq_bare_two_rows :
    let r := Record.ofBytes 7 #[0x19, 0x93, 0, 1, 0, 0, 0, 5, 0, 64, 0, 0, 1, 0,
      0, 0, 0, 0, 0, 0, 0, 0, 0, 0]
    let moves := [.call (.search 200), .call (.claim 1), .reopen, .call (.setSizeAt 14 80),
      .call (.setLocation 14 ⟨3, 9⟩), .reopen, .call (.search 70), .call (.release 0),
      .call (.locationOffset 65535)]
    (ofRecord.run r).result = .ok (unread r) ∧ (∀ c ∈ calls moves, AtRowStarts r.length c) ∧
      observe moves (unread r) = BarePage.observe (calls moves) r ∧
      observe moves (unread r) = observe ((calls moves).map .call) (unread r) := by
  intro r moves
  have hpage : r.IsSlotPage := ⟨by decide, by decide, by decide +kernel⟩
  have hp : (ofRecord.run r).result = .ok (unread r) := by rw [run_ofRecord hpage]
  have hm : ∀ c ∈ calls moves, AtRowStarts r.length c := by decide
  exact ⟨hp, hm, observe_eq_bare hp hm⟩

end FreeSpace.SlotPage
