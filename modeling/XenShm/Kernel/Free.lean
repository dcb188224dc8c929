import XenShm.Kernel.Init
import XenShm.Kernel.Mapping

/-!
# Giving an instance up

`__xen_shm_prepare_free` undoes the grants or the mappings of a released instance. The
peer may still use the pages, then it fails and is tried again later.
-/

namespace XenShm.Kernel

/-- What the calls made by `__xen_shm_prepare_free` return. -/
structure FreeEnv where
  /-- The content of the header page at that time, which tells how the receiver is. -/
  header : Header
  /-- Whether `gnttab_end_foreign_access_ref` ends the grant of the page. -/
  ended : Nat → Bool
  /-- Status of the unmap operation for the header page. -/
  unmapStatus : Int

/-- `__xen_shm_close_ec`: unbinding the handler closes the channel too. -/
def closeEc (d : Instance) : List Event :=
  [.release (.handler d.ecIrq), .release (.channel d.localEcPort)]

/-- The loop of an offerer: end the grants, the last one first, and stop at the first that is in
use. Returns how many are left. -/
def endGrants (h : Header) (ended : Nat → Bool) : (pagesCount : Nat) → Nat × List Event
  | 0 => (0, [])
  | page + 1 =>
    if ended page then
      let (left, events) := endGrants h ended page
      (left, .release (.grant (h.grantRefs page)) :: events)
    else (page + 1, [])

/-- An offerer is freed when all its grants have ended. -/
def prepareFreeOfferer (d : Instance) (env : FreeEnv) : Result × Instance × List Event :=
  let (left, events) := endGrants env.header env.ended d.pagesCount
  let d := { d with pagesCount := left }
  if left ≠ 0 then (.error (.code (-1)), d, events)
  else (.ok, d, events ++ closeEc d ++ freeSharedMemoryOfferer d)

/-- A receiver is freed when the header page is unmapped. -/
def prepareFreeReceiver (d : Instance) (env : FreeEnv) (events : List Event) :
    Result × Instance × List Event :=
  if env.unmapStatus = 0 then
    let d := { d with pagesCount := d.pagesCount - 1 }
    (.ok, d, events ++ [.release (.headerMap d.headerHandle)] ++ closeEc d ++
      freeSharedMemoryReceiver d)
  else (.error (.code (-1)), d, events)

/-- `__xen_shm_prepare_free`, which undoes what an instance holds, or fails while the peer uses
it. -/
def prepareFree (d : Instance) (env : FreeEnv) : Result × Instance × List Event :=
  match d.state with
  | .opened => (.ok, d, [])
  | .offerer => prepareFreeOfferer d env
  | .receiverMapped =>
    if ¬ d.usePtemod then
      let (d, events) := unmapReceiverGrantPages d 0 d.dataPages
      prepareFreeReceiver d env events
    else prepareFreeReceiver d env []
  | .receiver => prepareFreeReceiver d env []

/-- The part of `xen_shm_release` before the resources are given back: tell the peer. -/
def announceRelease (d : Instance) (h : Header) : Header × List Event :=
  match d.state with
  | .opened => (h, [])
  | .offerer => ({ h with offererState := .closed }, [.notify d.localEcPort])
  | .receiver | .receiverMapped => ({ h with receiverState := .closed }, [.notify d.localEcPort])

/-- Nothing is in use any more when the calls are made: every grant ends, or the header page is
unmapped. -/
def Instance.Freeable (d : Instance) (env : FreeEnv) : Prop :=
  match d.state with
  | .opened => True
  | .offerer => ∀ page < d.pagesCount, env.ended page = true
  | .receiver | .receiverMapped => env.unmapStatus = 0

section Free

variable {d : Instance} {h : Header} {env : FreeEnv} {n : Nat}

/-- The loop ends with no grant left exactly when every end of access succeeds. -/
theorem endGrants_eq_zero (h : Header) (ended : Nat → Bool) (n : Nat) :
    (endGrants h ended n).1 = 0 ↔ ∀ page < n, ended page = true := by
  induction n with
  | zero => simp [endGrants]
  | succ n ih =>
    simp only [endGrants]
    by_cases hn : ended n = true
    · rw [if_pos hn]
      refine ih.trans ⟨fun hall page hpage => ?_, fun hall page hpage => hall page (by omega)⟩
      rcases Nat.lt_succ_iff_lt_or_eq.mp hpage with hlt | rfl
      · exact hall page hlt
      · exact hn
    · rw [if_neg hn]
      exact iff_of_false (by simp) fun hall => hn (hall n (by omega))

/-- `__xen_shm_prepare_free` succeeds exactly when nothing is in use. -/
theorem prepareFree_ok_iff (d : Instance) (env : FreeEnv) :
    (prepareFree d env).1 = .ok ↔ d.Freeable env := by
  have hreceiver : ∀ (d' : Instance) events,
      (prepareFreeReceiver d' env events).1 = .ok ↔ env.unmapStatus = 0 := by
    intro d' events
    unfold prepareFreeReceiver
    split <;> simp_all
  unfold prepareFree Instance.Freeable
  cases d.state with
  | opened => simp
  | offerer =>
    simp only [prepareFreeOfferer]
    rw [← endGrants_eq_zero env.header]
    split <;> simp_all
  | receiver => exact hreceiver d []
  | receiverMapped =>
    by_cases hpte : d.usePtemod = true
    · simp only [hpte, not_true, if_false]
      exact hreceiver d []
    · simp only [hpte, Bool.false_eq_true, not_false_eq_true, if_true]
      exact hreceiver _ _

end Free

end XenShm.Kernel
