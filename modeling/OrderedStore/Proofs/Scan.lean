import OrderedStore.Proofs.Isolation

/-!
# Full scans

A new cursor that is moved to one end and then onwards, again and again, meets every entry once, in
order, and then none.

* `Session.trace_walk`: such a walk, along any list whose elements the moves lead through;
* `Session.trace_forward`, `Session.trace_backward`: the entries in ascending and in descending order.
-/

namespace OrderedStore

namespace Copy

/-! ## Moves along the entries -/

theorem destination_first (m : Contents) : destination m none .first = m.entries[0]? := List.head?_eq_getElem? ..

theorem destination_last (m : Contents) : destination m none .last = m.entries.reverse[0]? := by
  rw [← List.head?_eq_getElem?, List.head?_reverse]
  rfl

theorem destination_next (m : Contents) (i : Nat) : destination m m.entries[i]? .next = m.entries[i + 1]? := by
  cases h : m.entries[i]? with
  | none => exact (List.getElem?_eq_none (Nat.le_succ_of_le (List.getElem?_eq_none_iff.mp h))).symm
  | some e => exact KeyMap.after_getElem? h

theorem destination_prev (m : Contents) (i : Nat) :
    destination m m.entries.reverse[i]? .prev = m.entries.reverse[i + 1]? := by
  cases h : m.entries.reverse[i]? with
  | none => exact (List.getElem?_eq_none (Nat.le_succ_of_le (List.getElem?_eq_none_iff.mp h))).symm
  | some e => exact KeyMap.before_getElem? h

end Copy

namespace Session

variable {σ : Type} [LogStorage σ] {s : Session σ}

/-- A new cursor, with number `n`, is moved to one end and then `k` times onwards. -/
def walk (σ : Type) (n k : Nat) (fromEnd onwards : Move) : List (Event σ) :=
  .request .openCursor :: .request (.move n fromEnd) :: List.replicate k (.request (.move n onwards))

omit [LogStorage σ] in
theorem lt_length_readers {n : Nat} {r : Reader} (h : s.readers[n]? = some (some r)) : n < s.readers.length :=
  (List.getElem?_eq_some_iff.mp h).1

theorem step_openCursor (hopen : s.connection.isOpen = true) :
    s.step .openCursor = (.opened (.ok s.readers.length),
      ⟨{ s.connection with timeline := s.connection.timeline.pin s.connection.sequence },
        s.readers ++ [some (.cursor (.start s.connection.sequence))]⟩) := by
  simp only [step, Connection.openCursor, if_pos hopen]

theorem step_move {n : Nat} {cursor : Timeline.Cursor} (h : s.readers[n]? = some (some (.cursor cursor)))
    (m : Move) : s.step (.move n m) = (.entry (cursor.destination s.connection.timeline m),
      { s with readers := s.readers.set n (some (.cursor (cursor.move m s.connection.timeline))) }) := by
  simp only [step, h]
  rfl

/-- A cursor that stands on one element of a list goes through the next ones. By induction on the moves. -/
theorem trace_moves {n : Nat} {cursor : Timeline.Cursor} (hn : s.readers[n]? = some (some (.cursor cursor)))
    {l : List Entry} {onwards : Move}
    (honwards : ∀ i, Copy.destination (s.connection.timeline.versions.view cursor.seq) l[i]? onwards = l[i + 1]?)
    {i : Nat} (hi : cursor.current = l[i]?) (k : Nat) :
    (s.trace (List.replicate k (.request (.move n onwards)))).map Prod.snd =
      (List.range' (i + 1) k).map fun j => .entry l[j]? := by
  induction k generalizing s cursor i with
  | zero => rfl
  | succ k ih =>
    have hdest : cursor.destination s.connection.timeline onwards = l[i + 1]? := by
      rw [← Copy.destination_view, hi, honwards]
    have hmoved : (s.step (.move n onwards)).2.readers[n]? =
        some (some (.cursor (cursor.move onwards s.connection.timeline))) := by
      rw [step_move hn]
      exact List.getElem?_set_self (lt_length_readers hn)
    have hrest := ih hmoved (by rw [step_move hn]; exact honwards) hdest
    rw [List.replicate_succ, trace, List.map_cons, next, hrest, step_move hn, hdest, List.range'_succ,
      List.map_cons]

/-- A walk on an open connection meets the elements of a list one after the other, and then none. -/
theorem trace_walk (hopen : s.connection.isOpen = true) {l : List Entry} {fromEnd onwards : Move}
    (hend : Copy.destination s.connection.timeline.contents none fromEnd = l[0]?)
    (honwards : ∀ i, Copy.destination s.connection.timeline.contents l[i]? onwards = l[i + 1]?) (k : Nat) :
    (s.trace (walk σ s.readers.length k fromEnd onwards)).map Prod.snd =
      .opened (.ok s.readers.length) :: (List.range (k + 1)).map fun i => .entry l[i]? := by
  have hopened : (s.step .openCursor).2.readers[s.readers.length]? =
      some (some (.cursor (.start s.connection.sequence))) := by
    rw [step_openCursor hopen]
    exact List.getElem?_concat_length
  have hview : (s.step .openCursor).2.connection.timeline.versions.view s.connection.sequence =
      s.connection.timeline.contents := by
    rw [step_openCursor hopen]
    rfl
  have hdest : (Timeline.Cursor.start s.connection.sequence).destination (s.step .openCursor).2.connection.timeline
      fromEnd = l[0]? := by
    rw [← Copy.destination_view]
    exact hview.symm ▸ hend
  have hmoved : ((s.step .openCursor).2.step (.move s.readers.length fromEnd)).2.readers[s.readers.length]? =
      some (some (.cursor ((Timeline.Cursor.start s.connection.sequence).move fromEnd
        (s.step .openCursor).2.connection.timeline))) := by
    rw [step_move hopened]
    exact List.getElem?_set_self (lt_length_readers hopened)
  have hrest := trace_moves hmoved (by rw [step_move hopened]; exact hview.symm ▸ honwards) hdest k
  simp only [walk, trace, List.map_cons, next, hrest, List.range_eq_range', List.range'_succ]
  rw [step_move hopened, hdest, step_openCursor hopen]

/-- A forward scan meets the entries in ascending order of keys, each once, and then none. -/
theorem trace_forward (hopen : s.connection.isOpen = true) (k : Nat) :
    (s.trace (walk σ s.readers.length k .first .next)).map Prod.snd = .opened (.ok s.readers.length) ::
      (List.range (k + 1)).map fun i => .entry s.connection.timeline.contents.entries[i]? :=
  trace_walk hopen (Copy.destination_first _) (Copy.destination_next _) k

theorem trace_backward (hopen : s.connection.isOpen = true) (k : Nat) :
    (s.trace (walk σ s.readers.length k .last .prev)).map Prod.snd = .opened (.ok s.readers.length) ::
      (List.range (k + 1)).map fun i => .entry s.connection.timeline.contents.entries.reverse[i]? :=
  trace_walk hopen (Copy.destination_last _) (Copy.destination_prev _) k

end Session

end OrderedStore
