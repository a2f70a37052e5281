import Credentials.Proofs.Secret.Accounts
import Credentials.Proofs.Secret.Footprint

/-!
# Counters of backends

* `BackendKind.counted`      the constructions that a backend has counted;
* `Desk.Within`              a desk in memory none of whose counters is above a number;
* `Vault.within_after`       a call adds one at most, whatever faults it meets;
* `Vault.counters_afterUnder`   no counter is above the number of calls.

Counters are numbers here. A counter of 64 bits shows the same behind fewer than `2 ^ 64` calls.
-/

namespace Credentials

namespace BackendKind

/-- the constructions that a backend has counted, those of all namespaces together -/
def counted : BackendKind → Nat
  | .counting _ counts _ => total counts
  | .failing _ attempts => attempts
  | _ => 0

theorem counted_attempted (kind : BackendKind) (space : String) (engine : Engine) :
    (kind.attempted space engine).counted ≤ kind.counted + 1 := by
  cases kind with
  | memory | scripted => exact Nat.zero_le _
  | counting slow counts last => exact Nat.le_of_eq (total_putAt space counts)
  | failing failures attempts => exact Nat.le_refl _

theorem lookup_le_total (counts : List (String × Nat)) (space : String) :
    (counts.lookup space).getD 0 ≤ total counts := by
  induction counts with
  | nil => exact Nat.le_refl _
  | cons p r ih =>
    obtain ⟨n, b⟩ := p
    show _ ≤ b + total r
    rw [List.lookup_cons]
    split
    · exact Nat.le_add_right _ _
    · exact ih.trans (Nat.le_add_left _ _)

theorem counted_of_unused {kind : BackendKind} (h : kind.Unused) : kind.counted = 0 := by
  cases kind with
  | memory | scripted => rfl
  | counting slow counts last =>
    obtain ⟨rfl, -⟩ := h
    rfl
  | failing failures attempts => exact h

end BackendKind

namespace Desk

/-- a desk in memory none of whose counters is above a number -/
structure Within (d : Desk) (n : Nat) : Prop where
  inMemory : d.kind.inMemory
  next : d.next ≤ n
  created : d.created ≤ n
  counted : d.kind.counted ≤ n

variable {d d' : Desk} {n : Nat} {space : String} {engine : Engine}

theorem Within.congr (h : d.Within n) (hk : d'.kind = d.kind) (hn : d'.next = d.next)
    (hc : d'.created = d.created) : d'.Within n :=
  ⟨hk ▸ h.inMemory, hn ▸ h.next, hc ▸ h.created, hk ▸ h.counted⟩

theorem Within.succ (h : d.Within n) : d.Within (n + 1) :=
  ⟨h.inMemory, Nat.le_succ_of_le h.next, Nat.le_succ_of_le h.created, Nat.le_succ_of_le h.counted⟩

/-- a construction adds one at most, whether it makes a handle or not -/
theorem Within.attempted (h : d.Within n) (hk : d'.kind = d.kind.attempted space engine)
    (hn : d'.next ≤ d.next + 1) (hc : d'.created ≤ d.created + 1) : d'.Within (n + 1) := by
  refine ⟨hk ▸ inMemory_attempted h.inMemory, hn.trans (Nat.succ_le_succ h.next),
    hc.trans (Nat.succ_le_succ h.created), ?_⟩
  rw [hk]
  exact (BackendKind.counted_attempted d.kind space engine).trans (Nat.succ_le_succ h.counted)

theorem Within.construct (h : d.Within n) (space : String) (engine : Engine) :
    (d.construct space engine).2.Within (n + 1) := by
  unfold Desk.construct Desk.constructInMemory
  dsimp only
  split
  · exact h.attempted rfl (Nat.le_succ _) (Nat.le_succ _)
  · split
    · exact h.attempted rfl (Nat.le_succ _) (Nat.le_succ _)
    · exact h.attempted rfl (Nat.le_refl _) (Nat.le_refl _)

theorem Within.ask (h : d.Within n) (svc : Nat) (space : String) :
    (d.ask svc space).2.Within (n + 1) := by
  have ha := d.asks svc space
  generalize d.ask svc space = r at ha
  cases ha with
  | kept => exact h.succ
  | refused | injected => exact h.attempted rfl (Nat.le_succ _) (Nat.le_succ _)
  | made => exact h.attempted rfl (Nat.le_refl _) (Nat.le_refl _)

end Desk

namespace Vault

variable {v w : Vault} {n : Nat}

theorem within_of_sameSpaces (h : v.desk.Within n) (hw : SameSpaces v w) : w.desk.Within (n + 1) :=
  (h.congr hw.kind hw.next hw.created).succ

/-- a call adds one at most to each counter -/
theorem within_after (h : v.desk.Within n) (c : Call) : (v.after c).desk.Within (n + 1) := by
  have hm : v.backend.kind.inMemory := h.inMemory
  cases c with
  | start config =>
    show ((startService config).run v).2.desk.Within (n + 1)
    rcases startService_cases v config with hs | ⟨entry, hs⟩
    · rw [hs]
      exact h.succ
    · rw [hs]
      exact Desk.Within.succ (h.congr rfl rfl rfl)
  | write svc space key value =>
    rw [desk_after_write hm]
    exact h.ask svc space
  | read svc space key =>
    rw [desk_after_read hm]
    exact h.ask svc space
  | openSpace svc space =>
    rw [desk_after_openSpace hm]
    exact h.ask svc space
  | construct space engine =>
    rw [desk_after_construct hm]
    exact h.construct space engine
  | putThrough hd key e =>
    rw [desk_after_putThrough hm]
    exact h.succ
  | getThrough hd key =>
    rw [desk_after_getThrough hm]
    exact h.succ
  | encrypt path m => exact within_of_sameSpaces h (sameSpaces_encrypt path m v)
  | decrypt path c => exact within_of_sameSpaces h (sameSpaces_decrypt path c v)
  | encryptTransit path m => exact within_of_sameSpaces h (sameSpaces_encryptTransit path m v)
  | decryptTransit path c => exact within_of_sameSpaces h (sameSpaces_decryptTransit path c v)
  | plant space key r => exact Desk.Within.succ (h.congr rfl rfl rfl)

theorem within_afterUnder (h : v.desk.Within n) (cs : List (Faults × Call)) :
    (v.afterUnder cs).desk.Within (n + cs.length) := by
  induction cs generalizing v n with
  | nil => exact h
  | cons c cs ih =>
    have hf : (v.withFaults c.1).desk.Within n := h.congr rfl rfl rfl
    have hrest := ih (within_after hf c.2)
    rw [List.length_cons, Nat.add_comm cs.length, ← Nat.add_assoc]
    exact hrest

/-- behind any calls and faults no counter of an unused backend is above the number of calls, the counts
of single namespaces included -/
theorem counters_afterUnder {kind : BackendKind} (hu : kind.Unused) (random : RandomStream)
    (cs : List (Faults × Call)) :
    let b := ((⟨.start kind, [], random, [], []⟩ : Vault).afterUnder cs).backend
    b.nextHandle ≤ cs.length ∧ b.store.handlesCreated ≤ cs.length ∧ b.kind.counted ≤ cs.length ∧
      ∀ slow counts last, b.kind = .counting slow counts last →
        ∀ space, (counts.lookup space).getD 0 ≤ cs.length := by
  intro b
  have hstart : (⟨.start kind, [], random, [], []⟩ : Vault).desk.Within 0 :=
    ⟨BackendKind.inMemory_of_unused hu, Nat.le_refl _, Nat.le_refl _,
      Nat.le_of_eq (BackendKind.counted_of_unused hu)⟩
  have h := within_afterUnder hstart cs
  rw [Nat.zero_add] at h
  refine ⟨h.next, h.created, h.counted, fun slow counts last hk space => ?_⟩
  have hc : b.kind.counted ≤ cs.length := h.counted
  rw [hk] at hc
  exact (BackendKind.lookup_le_total counts space).trans hc

end Vault

end Credentials
