import RecordStore.Proofs.Availability
import RecordStore.Proofs.Frontier

/-!
# The next grant

The file on offer is the foremost by present size of all that the scheduler knew of when it chose. A
return that is sent afterwards does not change the choice, even when every lease has ended.
-/

namespace RecordStore.Store

variable {d : Disk} {dir : FileId} {files : List FileId} {s t : Store} {event : Event}
  {events : List Event} {id : PoolId} {p q : Pool} {i : Nat}

def OffersForemost (s : Store) (id : PoolId) (p : Pool) : Prop :=
  ∀ i, p.selected = some i →
    Foremost (s.fileSize id) (fun j => p.selected = some j ∨ p.isAvailable j = true) i

theorem Sound.fileSize_of_unheld {h : History} (hs : s.Sound d dir files h)
    (hdb : d.Database dir files) (hstep : s.step? event = some t) (hp : s.pools[id]? = some p)
    (hopen : p.isOpen = true) (hheld : s.holders id i = 0) :
    t.fileSize id i = s.fileSize id i := by
  have hc := change_of_step hstep
  obtain ⟨q, hq, hlike⟩ := hc.pool_kept hp
  rw [fileSize_of_pool hq, fileSize_of_pool hp, hlike.files]
  cases hfile : p.files[i]? with
  | none => rfl
  | some f =>
    obtain ⟨more, hmore⟩ := hs.placed.pools hp
    have hplace : files[i]? = some f := by
      rw [← hmore, List.getElem?_append_left (List.getElem?_eq_some_iff.1 hfile).1, hfile]
    exact hs.size_of_unheld hdb hc hp hopen hplace hheld

theorem OffersForemost.undisturbed {h : History} (ho : s.OffersForemost id p)
    (hs : s.Sound d dir files h) (hdb : d.Database dir files) (hstep : s.step? event = some t)
    (hp : s.pools[id]? = some p) (hopen : p.isOpen = true) (hselected : q.selected = p.selected)
    (havailable : q.available = p.available) : t.OffersForemost id q := by
  have hb := hs.conserved.balanced id p hp
  have hcandidates : ∀ j, (q.selected = some j ∨ q.isAvailable j = true) ↔
      (p.selected = some j ∨ p.isAvailable j = true) := by
    intro j
    unfold Pool.isAvailable
    rw [hselected, havailable]
  intro i hi
  rw [hselected] at hi
  refine (ho i hi).congr hcandidates fun j hj => ?_
  have hkept : p.Keeps j := hj.elim (fun h => .inr (.inl h)) .inl
  exact hs.fileSize_of_unheld hdb hstep hp hopen (hkept.not_held hb)

end RecordStore.Store
