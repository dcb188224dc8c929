import XenShm.Kernel.Free
import XenShm.Library.Run

/-!
# Pages and the peer

The domain that the pages are granted to maps and unmaps them when it likes, also between two
grants of INIT_OFFERER and between two rounds of `__xen_shm_prepare_free`, and it can write into
the header page once it has mapped it. The pages go back to the kernel at the end of the undo path
of INIT_OFFERER, or when no grant is left.
-/

namespace XenShm.Kernel

open Library

/-- An entry of the grant table that was made for a page of this offerer. -/
structure GrantEntry where
  /-- The page of the instance that the entry gives access to. -/
  page : Nat
  /-- Whether the peer may still map the page. -/
  active : Bool
  /-- How many mappings of the page the peer has. -/
  mapped : Nat
  deriving DecidableEq, Repr

/-- What an offerer is doing with its pages. -/
inductive OffererPhase where
  /-- INIT_OFFERER grants this page as the next one. -/
  | granting (page : Nat)
  /-- `undo_grant` has this many pages before it. -/
  | undoing (page : Nat)
  /-- INIT_OFFERER has succeeded and the pages are shared. -/
  | offering
  /-- The instance is released, and `data->pages_count` is this. -/
  | ending (left : Nat)
  /-- The pages were given back to the kernel. -/
  | freed
  deriving DecidableEq, Repr

/-- The pages whose access is not ended yet are those before this one. -/
def OffererPhase.live (count : Nat) : OffererPhase → Nat
  | .granting page | .undoing page => page
  | .offering => count
  | .ending left => left
  | .freed => 0

/-- An offerer, its header page and the grant table. -/
structure Exposure where
  /-- The page count that INIT_OFFERER has stored. -/
  count : Nat
  phase : OffererPhase
  /-- The references as the header page lists them, which the peer can overwrite. -/
  grantRefs : Nat → GrantRef
  /-- The entries that were made for this instance, by their references. -/
  table : GrantRef → Option GrantEntry

/-- INIT_OFFERER has allocated the pages, and no grant was made yet. -/
def Exposure.initial (count : Nat) (grantRefs : Nat → GrantRef) : Exposure :=
  ⟨count, .granting 0, grantRefs, fun _ => none⟩

/-- What `gnttab_end_foreign_access_ref` returns: a grant in use is not ended. `absent` is the
answer for a reference that is none of the instance. -/
def Exposure.ends (s : Exposure) (absent : Bool) (ref : GrantRef) : Bool :=
  match s.table ref with
  | none => absent
  | some e => e.mapped = 0

/-- `gnttab_end_foreign_access_ref`, which takes access away unless a mapping is in use. -/
def Exposure.endAccess (s : Exposure) (ref : GrantRef) : GrantRef → Option GrantEntry :=
  match s.table ref with
  | none => s.table
  | some e =>
    if e.mapped = 0 then Function.update s.table ref (some { e with active := false }) else s.table

/-- What the offerer and its peer do, in any order. -/
inductive Exposure.Input where
  /-- `gnttab_grant_foreign_access` returns a reference or an error. -/
  | grant (ref : Int)
  /-- The event channel is opened, or cannot be. -/
  | connect (opened : Bool)
  /-- One round of `undo_grant`, or its end. -/
  | undo
  /-- The instance is released, and its teardown begins. -/
  | release
  /-- One round of the loop of `__xen_shm_prepare_free`, or its end. -/
  | prepareFree (absent : Bool)
  /-- The peer maps a page with this reference. -/
  | map (ref : GrantRef)
  /-- The peer unmaps a page that it has mapped. -/
  | unmap (ref : GrantRef)
  /-- The peer writes into the list, through the page that it has mapped with `via`. -/
  | write (via : GrantRef) (page : Nat) (ref : GrantRef)

/-- One step of the offerer, or of a peer that does as it likes. -/
def Exposure.step (s : Exposure) : Input → Option Exposure
  | .grant ref =>
    match s.phase with
    | .granting page =>
      if page = s.count then none
      else
        let list := Function.update s.grantRefs page (.ofInt ref)
        -- an error is listed like a reference, and the loop goes on
        if ref < 0 then some { s with phase := .granting (page + 1), grantRefs := list }
        else if (s.table (.ofInt ref)).isSome then none
        else some { s with
          phase := .granting (page + 1)
          grantRefs := list
          table := Function.update s.table (.ofInt ref) (some ⟨page, true, 0⟩) }
    | _ => none
  | .connect opened =>
    if s.phase = .granting s.count then
      some { s with phase := if opened then .offering else .undoing s.count }
    else none
  | .undo =>
    match s.phase with
    | .undoing (page + 1) =>
      -- whether the access was ended is not looked at
      some { s with phase := .undoing page, table := s.endAccess (s.grantRefs page) }
    | .undoing 0 => some { s with phase := .freed }
    | _ => none
  | .release => if s.phase = .offering then some { s with phase := .ending s.count } else none
  | .prepareFree absent =>
    match s.phase with
    | .ending (left + 1) =>
      if s.ends absent (s.grantRefs left) then
        some { s with phase := .ending left, table := s.endAccess (s.grantRefs left) }
      else some s
    | .ending 0 => some { s with phase := .freed }
    | _ => none
  | .map ref =>
    match s.table ref with
    | some e =>
      if e.active then
        some { s with
          table := Function.update s.table ref (some { e with mapped := e.mapped + 1 }) }
      else none
    | none => none
  | .unmap ref =>
    match s.table ref with
    | some e =>
      if e.mapped = 0 then none
      else
        some { s with
          table := Function.update s.table ref (some { e with mapped := e.mapped - 1 }) }
    | none => none
  | .write via page ref =>
    match s.table via with
    | some e =>
      if e.page = 0 ∧ e.mapped ≠ 0 then
        some { s with grantRefs := Function.update s.grantRefs page ref }
      else none
    | none => none

/-- The peer leaves the list as it is, and has no page mapped when the undo path comes to it. -/
def Exposure.spared (s : Exposure) : Input → Bool
  | .write _ page ref => s.grantRefs page = ref
  | .undo =>
    match s.phase with
    | .undoing (page + 1) => s.ends true (s.grantRefs page)
    | _ => true
  | _ => true

/-- The guard under which everything may happen. -/
def Exposure.anything (_ : Exposure) (_ : Input) : Bool := true

/-- The list finds every grant that was made, and the access to the pages behind those that are
left was ended. -/
structure Exposure.Guarded (s : Exposure) : Prop where
  /-- The reference of each entry is listed for its page. -/
  listed : ∀ ref e, s.table ref = some e → s.grantRefs e.page = ref
  /-- INIT_OFFERER has only granted the pages before. -/
  granted : ∀ page, s.phase = .granting page → ∀ ref e, s.table ref = some e → e.page < page
  /-- The entry of an ended grant is neither active nor mapped. -/
  ended : ∀ ref e, s.table ref = some e → s.phase.live s.count ≤ e.page →
    e.active = false ∧ e.mapped = 0

section Steps

variable {s t : Exposure} {ref : GrantRef} {absent : Bool}

/-- An entry of an updated table is the new one or an old one. -/
theorem update_cases {table : GrantRef → Option GrantEntry} {ref ref' : GrantRef}
    {e e' : GrantEntry} (h : Function.update table ref (some e) ref' = some e') :
    ref' = ref ∧ e' = e ∨ ref' ≠ ref ∧ table ref' = some e' := by
  by_cases heq : ref' = ref
  · subst heq
    rw [Function.update_self] at h
    exact .inl ⟨rfl, (Option.some.inj h).symm⟩
  · rw [Function.update_of_ne heq] at h
    exact .inr ⟨heq, h⟩

/-- What an end of access that succeeds leaves in the table. -/
theorem Exposure.endAccess_cases (hends : s.ends absent ref = true) {ref' : GrantRef}
    {e : GrantEntry} (he : s.endAccess ref ref' = some e) :
    ref' = ref ∧ e.active = false ∧ e.mapped = 0 ∧
        (∃ old, s.table ref = some old ∧ e.page = old.page) ∨
      ref' ≠ ref ∧ s.table ref' = some e := by
  unfold endAccess at he
  unfold ends at hends
  cases hentry : s.table ref with
  | none =>
    rw [hentry] at he
    exact .inr ⟨fun heq => by simp [heq, hentry] at he, he⟩
  | some old =>
    rw [hentry] at he hends
    simp only [decide_eq_true_eq] at hends
    simp only [if_pos hends] at he
    rcases update_cases he with ⟨rfl, rfl⟩ | hold
    · exact .inl ⟨rfl, rfl, hends, old, rfl, rfl⟩
    · exact .inr hold

namespace Exposure.Guarded

/-- One round of a loop that ends the access to the page `left`. -/
theorem endAccess {left : Nat} {phase : OffererPhase} (h : s.Guarded)
    (hlive : s.phase.live s.count = left + 1) (hphase : phase.live s.count = left)
    (hgranting : ∀ page, phase ≠ .granting page)
    (hends : s.ends absent (s.grantRefs left) = true) :
    Guarded { s with phase := phase, table := s.endAccess (s.grantRefs left) } := by
  refine ⟨fun ref e he => ?_, fun page hpage => absurd hpage (hgranting page),
    fun ref e he hle => ?_⟩
  · rcases endAccess_cases hends he with ⟨rfl, -, -, old, hold, hpage⟩ | ⟨-, hold⟩
    · rw [hpage]
      exact h.listed _ old hold
    · exact h.listed ref e hold
  · rcases endAccess_cases hends he with ⟨-, hactive, hmapped, -⟩ | ⟨hne, hold⟩
    · exact ⟨hactive, hmapped⟩
    · refine h.ended ref e hold ?_
      -- the entry of the page that was left would be the one just ended
      have hpage : e.page ≠ left := fun heq => hne (by rw [← h.listed ref e hold, heq])
      rw [hphase] at hle
      omega

/-- A step that leaves the table and the list alone. -/
theorem phase {phase : OffererPhase} (h : s.Guarded)
    (hlive : s.phase.live s.count ≤ phase.live s.count)
    (hgranting : ∀ page, phase ≠ .granting page) : Guarded { s with phase := phase } :=
  ⟨h.listed, fun page hpage => absurd hpage (hgranting page),
    fun ref e he hle => h.ended ref e he (hlive.trans hle)⟩

/-- Mapping and unmapping change one entry that is still active or mapped. -/
theorem update {e : GrantEntry} {mapped : Nat} (h : s.Guarded) (he : s.table ref = some e)
    (hlive : e.active = true ∨ e.mapped ≠ 0) :
    Guarded { s with
      table := Function.update s.table ref (some { e with mapped := mapped }) } := by
  refine ⟨fun ref' e' he' => ?_, fun page hpage ref' e' he' => ?_, fun ref' e' he' hle => ?_⟩
  · rcases update_cases he' with ⟨rfl, rfl⟩ | ⟨-, hold⟩
    · exact h.listed ref' e he
    · exact h.listed ref' e' hold
  · rcases update_cases he' with ⟨rfl, rfl⟩ | ⟨-, hold⟩
    · exact h.granted page hpage ref' e he
    · exact h.granted page hpage ref' e' hold
  · rcases update_cases he' with ⟨rfl, rfl⟩ | ⟨-, hold⟩
    · obtain ⟨hactive, hmapped⟩ := h.ended ref' e he hle
      simp [hactive, hmapped] at hlive
    · exact h.ended ref' e' hold hle

/-- INIT_OFFERER lists what it is told for the next page. -/
theorem list {page : Nat} (h : s.Guarded) (hpage : s.phase = .granting page) (ref : GrantRef) :
    Guarded { s with
      phase := .granting (page + 1), grantRefs := Function.update s.grantRefs page ref } := by
  refine ⟨fun ref' e he => ?_, ?_, fun ref' e he hle => ?_⟩
  · have hlt := h.granted page hpage ref' e he
    exact (Function.update_of_ne (by omega) ..).trans (h.listed ref' e he)
  · rintro page' heq ref' e he
    obtain rfl := OffererPhase.granting.inj heq
    exact (h.granted page hpage ref' e he).trans (Nat.lt_succ_self page)
  · have hlt := h.granted page hpage ref' e he
    simp only [OffererPhase.live] at hle
    omega

/-- Where it was told a reference, there is a new entry. -/
theorem grant {page : Nat} (h : s.Guarded) (hpage : s.phase = .granting page) (ref : GrantRef) :
    Guarded { s with
      phase := .granting (page + 1)
      grantRefs := Function.update s.grantRefs page ref
      table := Function.update s.table ref (some ⟨page, true, 0⟩) } := by
  have hlist := h.list hpage ref
  refine ⟨fun ref' e he => ?_, fun page' heq ref' e he => ?_, fun ref' e he hle => ?_⟩
  · rcases update_cases he with ⟨rfl, rfl⟩ | ⟨-, hold⟩
    · exact Function.update_self ..
    · exact hlist.listed ref' e hold
  · rcases update_cases he with ⟨rfl, rfl⟩ | ⟨-, hold⟩
    · obtain rfl := OffererPhase.granting.inj heq
      exact Nat.lt_succ_self page
    · exact hlist.granted page' heq ref' e hold
  · rcases update_cases he with ⟨rfl, rfl⟩ | ⟨-, hold⟩
    · exact absurd hle (Nat.not_succ_le_self page)
    · exact hlist.ended ref' e hold hle

/-- Every step that spares the offerer keeps the invariant. -/
theorem step {input : Input} (h : s.Guarded) (hspared : s.spared input = true)
    (hstep : s.step input = some t) : t.Guarded := by
  cases input with
  | grant ref =>
    simp only [Exposure.step] at hstep
    split at hstep
    · rename_i page hpage
      split_ifs at hstep with hlast herror hused
      · obtain rfl := Option.some.inj hstep
        exact h.list hpage _
      · obtain rfl := Option.some.inj hstep
        exact h.grant hpage _
    · cases hstep
  | connect opened =>
    simp only [Exposure.step, Option.ite_none_right_eq_some, Option.some.injEq] at hstep
    obtain ⟨hphase, rfl⟩ := hstep
    refine h.phase ?_ ?_
    · cases opened <;> simp [hphase, OffererPhase.live]
    · cases opened <;> simp
  | undo =>
    simp only [Exposure.step] at hstep
    split at hstep
    · rename_i page hphase
      obtain rfl := Option.some.inj hstep
      simp only [spared, hphase] at hspared
      exact h.endAccess (by rw [hphase]; rfl) rfl (by simp) hspared
    · rename_i hphase
      obtain rfl := Option.some.inj hstep
      exact h.phase (by rw [hphase]; exact Nat.le_refl 0) (by simp)
    · cases hstep
  | release =>
    simp only [Exposure.step, Option.ite_none_right_eq_some, Option.some.injEq] at hstep
    obtain ⟨hphase, rfl⟩ := hstep
    exact h.phase (by rw [hphase]; exact Nat.le_refl _) (by simp)
  | prepareFree absent =>
    simp only [Exposure.step] at hstep
    split at hstep
    · rename_i left hphase
      split_ifs at hstep with hends
      · obtain rfl := Option.some.inj hstep
        exact h.endAccess (by rw [hphase]; rfl) rfl (by simp) hends
      · obtain rfl := Option.some.inj hstep
        exact h
    · rename_i hphase
      obtain rfl := Option.some.inj hstep
      exact h.phase (by rw [hphase]; exact Nat.le_refl 0) (by simp)
    · cases hstep
  | map ref =>
    simp only [Exposure.step] at hstep
    split at hstep
    · rename_i e he
      split_ifs at hstep with hactive
      obtain rfl := Option.some.inj hstep
      exact h.update he (.inl hactive)
    · cases hstep
  | unmap ref =>
    simp only [Exposure.step] at hstep
    split at hstep
    · rename_i e he
      split_ifs at hstep with hmapped
      obtain rfl := Option.some.inj hstep
      exact h.update he (.inr hmapped)
    · cases hstep
  | write via page ref =>
    simp only [Exposure.step] at hstep
    split at hstep
    · split_ifs at hstep
      obtain rfl := Option.some.inj hstep
      have hsame : s.grantRefs page = ref := of_decide_eq_true hspared
      rwa [← hsame, Function.update_eq_self]
    · cases hstep

end Exposure.Guarded

end Steps

section Calls

variable {s : Exposure} {absent : Bool}

/-- The end of an access changes none of the mappings that the peer has. -/
theorem Exposure.ends_endAccess (s : Exposure) (phase : OffererPhase) (ref : GrantRef) :
    Exposure.ends { s with phase := phase, table := s.endAccess ref } = s.ends := by
  funext absent ref'
  simp only [ends, endAccess]
  cases hentry : s.table ref with
  | none => rfl
  | some e =>
    simp only
    split_ifs with hmapped
    · by_cases heq : ref' = ref
      · subst heq
        simp [hentry]
      · rw [Function.update_of_ne heq]
    · rfl

/-- The rounds of the loop without the peer in between are `endGrants`. -/
theorem Exposure.reaches_endGrants (absent : Bool) (h : Header) (n : Nat)
    (hlist : h.grantRefs = s.grantRefs) (hphase : s.phase = .ending n) :
    ∃ table, Reaches Exposure.step Exposure.anything s { s with
      phase := .ending (endGrants h (fun page => s.ends absent (h.grantRefs page)) n).1
      table := table } := by
  induction n generalizing s with
  | zero => exact ⟨s.table, by rw [endGrants, ← hphase]⟩
  | succ n ih =>
    by_cases hends : s.ends absent (h.grantRefs n) = true
    · have hstep : s.step (.prepareFree absent) =
          some { s with phase := .ending n, table := s.endAccess (h.grantRefs n) } := by
        simp only [step, hphase, ← hlist, if_pos hends]
      obtain ⟨table, hrun⟩ := ih (s := { s with
        phase := .ending n, table := s.endAccess (h.grantRefs n) }) hlist rfl
      refine ⟨table, .head ⟨.prepareFree absent, rfl, hstep⟩ ?_⟩
      rw [ends_endAccess] at hrun
      simpa only [endGrants, if_pos hends] using hrun
    · refine ⟨s.table, ?_⟩
      simp only [endGrants, if_neg hends, ← hphase]
      exact .refl

/-- A call of `__xen_shm_prepare_free` gives the pages back when its last grant is ended, and
otherwise leaves as many as it counts. -/
theorem Exposure.reaches_prepareFree {d : Instance} {env : FreeEnv} (hd : d.state = .offerer)
    (hphase : s.phase = .ending d.pagesCount) (hlist : env.header.grantRefs = s.grantRefs)
    (hended : ∀ page, env.ended page = s.ends absent (s.grantRefs page)) :
    ∃ t, Reaches Exposure.step Exposure.anything s t ∧ t.phase =
      if (prepareFree d env).1 = .ok then .freed
      else .ending (prepareFree d env).2.1.pagesCount := by
  obtain ⟨table, hrun⟩ := reaches_endGrants absent env.header d.pagesCount hlist hphase
  have hsame : (fun page => s.ends absent (env.header.grantRefs page)) = env.ended := by
    funext page
    rw [hended, hlist]
  rw [hsame] at hrun
  simp only [prepareFree, hd, prepareFreeOfferer]
  by_cases hleft : (endGrants env.header env.ended d.pagesCount).1 = 0
  · refine ⟨_, hrun.snoc (.prepareFree absent) rfl (by simp only [step, hleft]; rfl), ?_⟩
    simp [hleft]
  · exact ⟨_, hrun, by simp [hleft]⟩

/-- The rounds of INIT_OFFERER without the peer in between are `grantPages`. -/
theorem Exposure.run_grantPages {t : Exposure} (grant : Nat → Int) (left page : Nat) (h : Header)
    (hlist : h.grantRefs = s.grantRefs) (hphase : s.phase = .granting page)
    (hrun : run Exposure.step Exposure.anything s
      ((List.range' page left).map fun i => .grant (grant i)) = some t) :
    t.phase = .granting (page + left) ∧
      t.grantRefs = (grantPages grant left page h).header.grantRefs := by
  induction left generalizing s page h with
  | zero =>
    obtain rfl := Option.some.inj hrun
    exact ⟨hphase, hlist.symm⟩
  | succ left ih =>
    simp only [List.range'_succ, List.map_cons, run, anything, if_true, Option.bind_eq_some_iff]
      at hrun
    obtain ⟨u, hu, hrun⟩ := hrun
    have hnext : u.phase = .granting (page + 1) ∧
        u.grantRefs = Function.update s.grantRefs page (.ofInt (grant page)) := by
      simp only [step, hphase] at hu
      split_ifs at hu <;> obtain rfl := Option.some.inj hu <;> exact ⟨rfl, rfl⟩
    obtain ⟨hlast, hrefs⟩ := ih (page + 1)
      { h with grantRefs := Function.update h.grantRefs page (.ofInt (grant page)) }
      (by rw [hnext.2, hlist]) hnext.1 hrun
    refine ⟨by rw [hlast, Nat.add_right_comm, Nat.add_assoc], ?_⟩
    simpa only [grantPages, GrantRef.isNegative_eq, Bool.false_eq_true, if_false] using hrefs

end Calls

/-- Before any grant is made there is nothing that the list has to find. -/
theorem Exposure.guarded_initial (count : Nat) (grantRefs : Nat → GrantRef) :
    (Exposure.initial count grantRefs).Guarded := by
  refine ⟨?_, ?_, ?_⟩ <;> simp [Exposure.initial]

/-- Pages that were given back are out of reach: the peer has no mapping of them and can make
none, as long as it leaves the list in the header page alone and the undo path of INIT_OFFERER
comes to no mapped page. -/
theorem freed_unreachable {count : Nat} {grantRefs : Nat → GrantRef} {s : Exposure}
    (h : Reaches Exposure.step Exposure.spared (.initial count grantRefs) s)
    (hfreed : s.phase = .freed) (ref : GrantRef) :
    (∀ e, s.table ref = some e → e.mapped = 0) ∧ s.step (.map ref) = none := by
  have hs := h.invariant (Exposure.guarded_initial count grantRefs) fun _ _ _ hs => hs.step
  have hended : ∀ e, s.table ref = some e → e.active = false ∧ e.mapped = 0 := fun e he =>
    hs.ended ref e he (by rw [hfreed]; exact Nat.zero_le _)
  refine ⟨fun e he => (hended e he).2, ?_⟩
  cases he : s.table ref with
  | none => simp [Exposure.step, he]
  | some e => simp [Exposure.step, he, (hended e he).1]

/-- One page is offered beside the header page, mapped, unmapped and given back. -/
def Exposure.oneRound : List Exposure.Input :=
  [.grant 8, .grant 9, .connect true, .map 8, .map 9, .release, .prepareFree true, .unmap 9,
    .unmap 8, .prepareFree true, .prepareFree true, .prepareFree true]

/-- A peer maps the data page and unmaps it, the offerer is released, and the page is out of
reach. -/
theorem freed_unreachable_oneRound : ∃ s : Exposure, s.phase = .freed ∧
    (∀ e, s.table 9 = some e → e.mapped = 0) ∧ s.step (.map 9) = none := by
  have hrun : (run Exposure.step Exposure.spared (.initial 2 fun _ => 0) Exposure.oneRound).any
      (fun s => s.phase = .freed) = true := by decide
  obtain ⟨s, hreach, hfreed⟩ := exists_reaches_of_run hrun
  have hphase : s.phase = .freed := of_decide_eq_true hfreed
  exact ⟨s, hphase, freed_unreachable hreach hphase 9⟩

/-- Neither half of the guard can be dropped. In one run the peer lists an ended reference for a
page that it maps, in the other one it maps a page that the undo path comes to. -/
theorem not_freed_unreachable :
    (∃ s, Reaches Exposure.step Exposure.anything (.initial 2 fun _ => 0) s ∧
      s.phase = .freed ∧ s.table 9 = some ⟨1, true, 1⟩) ∧
    ∃ s, Reaches Exposure.step Exposure.anything (.initial 1 fun _ => 0) s ∧
      s.phase = .freed ∧ s.table 8 = some ⟨0, true, 1⟩ := by
  have hlist : (run Exposure.step Exposure.anything (.initial 2 fun _ => 0)
      [.grant 8, .grant 9, .connect true, .map 8, .map 9, .write 8 1 7, .unmap 8, .release,
        .prepareFree true, .prepareFree true, .prepareFree true]).any
      (fun s => s.phase = .freed ∧ s.table 9 = some ⟨1, true, 1⟩) = true := by decide
  have hundo : (run Exposure.step Exposure.anything (.initial 1 fun _ => 0)
      [.grant 8, .map 8, .connect false, .undo, .undo]).any
      (fun s => s.phase = .freed ∧ s.table 8 = some ⟨0, true, 1⟩) = true := by decide
  obtain ⟨s, hreach, hs⟩ := exists_reaches_of_run hlist
  obtain ⟨t, hreach', ht⟩ := exists_reaches_of_run hundo
  exact ⟨⟨s, hreach, of_decide_eq_true hs⟩, t, hreach', of_decide_eq_true ht⟩

end XenShm.Kernel
