import Mathlib.Data.List.Forall2
import StorageTrials.Proofs.DirectOutcomes
import StorageTrials.Proofs.Lockstep

namespace StorageTrials

open FileSystem Runner Surroundings

open Dialogue

variable {w u u' : Surroundings} {s : Settings} {store : StoreId} {f : SourceFile}
variable {files : List SourceFile} {c c' : Scene} {kind : Line → Prop} {path name : String}
variable {held : String → List StoredVersion} {x : ByteArray}
variable {K : String → List StoredVersion → Prop}

namespace Scene

def untouched (w : Surroundings) : Scene := .around w.files none fun id => w.output = .file id

theorem untouched_offers (hwf : w.files.WellFormed) (hr : w.Receives)
    (hout : ∀ id, w.output = .file id → id < w.files.nodes.size) (hs : w.Stocks store held)
    (h : w.Looked u) : (untouched w).Offers store held u := by
  obtain ⟨hfiles, ho, hu⟩ := h.proceeds
  have hsmooth : u.Smooth (untouched w).stream :=
    ⟨hfiles ▸ hwf, hu, fun id hid => ho.symm.trans hid⟩
  have hreceives : u.Receives := hr.congr ho fun _ _ => by rw [hfiles]
  refine ⟨hsmooth.attended hreceives ?_ hout, hs.of_stores h.stays.stores⟩
  rw [hfiles]
  exact holds_first (c := untouched w) hwf

theorem untouched_bytes? (hx : w.files.bytes? path = some x)
    (hstream : ∀ id, w.output = .file id → w.files.find path ≠ .ok id) :
    ∀ fs, (untouched w).Holds fs → fs.bytes? path = some x := by
  intro fs h
  obtain ⟨id, hid, hn⟩ := bytes?_eq_some_iff.mp hx
  refine bytes?_eq_some_iff.mpr ⟨id, ?_⟩
  exact h.find_file (fun _ _ => trivial) (fun _ _ ht => nomatch ht) hid hn fun ho =>
    hstream id ho hid

/-- Two runs over stores that hold the same of every object, but for what the second one may hold
of some. -/
def Offering (c c' : Scene) (store : StoreId) (K : String → List StoredVersion → Prop)
    (u u' : Surroundings) : Prop :=
  ∃ held held', c.Offers store held u ∧ c'.Offers store held' u' ∧
    ∀ n, held' n = held n ∨ K n (held' n)

theorem Offering.versionsOf (h : Offering c c' store K u u') (name : String) :
    u'.versionsOf store name = u.versionsOf store name ∨ K name (u'.versionsOf store name) := by
  obtain ⟨held, held', hu, hu', hsame⟩ := h
  rw [hu.stocks.versionsOf, hu'.stocks.versionsOf]
  exact hsame name

theorem Offering.abreast_file (h : Offering c c' store K u u') (hloops : s.loopCount ≠ 0)
    (hx : ∀ fs, c.Holds fs → fs.bytes? f.path = some x)
    (hx' : ∀ fs, c'.Holds fs → fs.bytes? f.path = some x) (hsize : f.size? = some x.size)
    (hk : ∀ r : Record, r.file = f.name → kind (.record r)) :
    (directFile s store f).dialogue.Abreast kind (directFile s store f).dialogue u u'
      fun r v r' v' => (∃ b, r = .ok b ∧ r' = .ok b) ∧ Offering c c' store K v v' := by
  obtain ⟨held, held', hu, hu', hsame⟩ := h
  refine (Abreast.of_prints (hu.prints_directFile hloops hx hsize)
    (hu'.prints_directFile hloops hx' hsize) fun l hl => ?_).weaken fun r v r' v' hpost => ?_
  · obtain ⟨r, rfl, hfile⟩ := mem_deliveryRows hl
    exact hk r hfile
  · obtain ⟨⟨hr, hv⟩, hr', hv'⟩ := hpost
    refine ⟨⟨true, hr, hr'⟩, _, _, hv, hv', fun n => ?_⟩
    by_cases hn : n = f.name
    · subst hn
      exact .inl (by rw [Function.update_self, Function.update_self])
    · rw [Function.update_of_ne hn, Function.update_of_ne hn]
      exact hsame n

theorem Offering.lanes (hloops : s.loopCount ≠ 0)
    (hfiles : ∀ f ∈ files, f.isReady = true → ∃ x : ByteArray,
      (∀ fs, c.Holds fs → fs.bytes? f.path = some x) ∧
      (∀ fs, c'.Holds fs → fs.bytes? f.path = some x) ∧ f.size? = some x.size)
    (hk : ∀ f ∈ files, ∀ r : Record, r.file = f.name → kind (.record r)) :
    Lanes kind (directFile s store) files fun _ => Offering c c' store K where
  takes _ _ _ h := by
    obtain ⟨held, held', hu, hu', -⟩ := h
    exact ⟨⟨hu.undisturbed, hu.receives⟩, hu'.undisturbed, hu'.receives⟩
  report _ event _ _ h := by
    obtain ⟨held, held', hu, hu', hsame⟩ := h
    exact ⟨held, held', (hu.prints_report event).ends.1, hu', hsame⟩
  report' _ event _ _ h := by
    obtain ⟨held, held', hu, hu', hsame⟩ := h
    exact ⟨held, held', hu, (hu'.prints_report event).ends.1, hsame⟩
  print _ line _ _ h := by
    obtain ⟨held, held', hu, hu', hsame⟩ := h
    exact ⟨held, held', hu.print line, hu'.print line, hsame⟩
  skip _ _ _ _ _ _ h := h
  file _ f hf hr u u' h := by
    obtain ⟨x, hx, hx', hsize⟩ := hfiles f hf hr
    exact h.abreast_file hloops hx hx' hsize (hk f hf)

end Scene

/-- Surroundings in which a run over a store may begin. Its statistics go to none of the sources,
and nothing is planned for the store. -/
structure Settings.Begins (s : Settings) (store : StoreId) (w : Surroundings) : Prop where
  undisturbed : w.Undisturbed
  wellFormed : w.files.WellFormed
  loops : s.loopCount ≠ 0
  source : w.files.inspect s.sourceDir = .ok .directory
  reliable : w.Reliable
  output : ∀ id, w.output = .file id → id < w.files.nodes.size
  stream : ∀ f ∈ s.files, ∀ id, w.output = .file id →
    w.files.find (Path.join s.sourceDir f) ≠ .ok id
  stocks : w.Stocks store (w.versionsOf store)

namespace Settings.Begins

variable {w' : Surroundings}

theorem offers (h : s.Begins store w) (hr : w.Receives) (hu : w.Looked u) :
    (Scene.untouched w).Offers store (w.versionsOf store) u :=
  Scene.untouched_offers h.wellFormed hr h.output h.stocks hu

variable (h : s.Begins store w) (h' : s.Begins store w')
variable (hsources : ∀ f ∈ s.files, w'.files.bytes? (Path.join s.sourceDir f) =
  w.files.bytes? (Path.join s.sourceDir f))
include h h' hsources

theorem abreast (hr : w.Receives) (hr' : w'.Receives)
    (hheld : ∀ n, w'.versionsOf store n = w.versionsOf store n ∨ K n (w'.versionsOf store n)) :
    (direct s store).session.dialogue.Abreast (fun _ => True) (direct s store).session.dialogue w w'
      fun r u r' u' => (∃ b, r = .ok b ∧ r' = .ok b) ∧
        Scene.Offering (.untouched w) (.untouched w') store K u u' := by
  have hlanes : Lanes (fun _ => True) (directFile s store)
      (s.files.map (w.files.source s.sourceDir))
      fun _ => Scene.Offering (.untouched w) (.untouched w') store K := by
    refine Scene.Offering.lanes h.loops (fun f hf hready => ?_) fun _ _ _ _ => trivial
    obtain ⟨x, hx, hsize⟩ := bytes?_of_ready hf hready
    obtain ⟨name, hname, rfl⟩ := List.mem_map.mp hf
    exact ⟨x, Scene.untouched_bytes? hx (h.stream name hname),
      Scene.untouched_bytes? ((hsources name hname).trans hx) (h'.stream name hname), hsize⟩
  have hff : List.Forall₂ Counterpart (s.files.map (w.files.source s.sourceDir))
      (s.files.map (w'.files.source s.sourceDir)) := by
    refine List.forall₂_map_left_iff.mpr (List.forall₂_map_right_iff.mpr ?_)
    exact List.forall₂_same.mpr fun name hname => counterpart_of_bytes? (hsources name hname)
  exact hlanes.abreast_runAll (fun _ => trivial) h.undisturbed h'.undisturbed h.source h'.source
    (fun u u' hu hu' => ⟨_, _, h.offers hr hu, h'.offers hr' hu', hheld⟩) hff

/-- A run over what another run has left prints the same lines, comes to the same and leaves the
same. -/
theorem again (hreceives : w'.Receives ↔ w.Receives)
    (hheld : w'.versionsOf store =
      ((direct s store).session.dialogue.final answer w).versionsOf store) :
    (direct s store).session.dialogue.Abreast (fun _ => True) (direct s store).session.dialogue w w'
      fun r u r' u' => r' = r ∧ u'.versionsOf store = u.versionsOf store := by
  cases h.reliable.receives_or_refuses with
  | inl hr =>
    have habreast := h.abreast h' hsources (K := fun n vs =>
      vs = ((direct s store).session.dialogue.final answer w).versionsOf store n) hr
      (hreceives.mpr hr) fun n => .inr (congrFun hheld n)
    obtain ⟨⟨b, hb, hb'⟩, hoffering⟩ := habreast.ends
    refine ⟨habreast.lines, habreast.kind, habreast.logs, habreast.logs', hb'.trans hb.symm, ?_⟩
    -- what the second run has not made its own yet is what the first has left
    exact funext fun n => (hoffering.versionsOf n).elim id id
  | inr hr =>
    have hr' : w'.Refuses := h'.reliable.receives_or_refuses.resolve_left fun hreceives' =>
      hr.not_receives (hreceives.mp hreceives')
    have hleft : (direct s store).session.dialogue.Prints w _ _ :=
      hr.prints_runAll h.undisturbed h.source
    have hright : (direct s store).session.dialogue.Prints w' _ _ :=
      hr'.prints_runAll h'.undisturbed h'.source
    refine (Abreast.of_prints hleft hright fun _ _ => trivial).weaken fun r u r' u' hpost => ?_
    obtain ⟨⟨rfl, hu⟩, rfl, hu'⟩ := hpost
    refine ⟨rfl, ?_⟩
    rw [(h'.stocks.of_stores hu'.stores).versionsOf, (h.stocks.of_stores hu.stores).versionsOf,
      hheld, (h.stocks.of_stores hleft.ends.2.stores).versionsOf]

end Settings.Begins

end StorageTrials
