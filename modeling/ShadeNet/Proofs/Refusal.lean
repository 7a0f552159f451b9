/-
# A pass whose destination refuses one record

The same steps are run twice: once where every record is taken, and once where the
record at one place is refused. As long as that place is not reached, the two runs
are one. Once it is, the second run ends there, whatever stands between the record
and the pass, and its sink has what was written before that record.

Key definitions: `CutRun`, `Cuts`, `Rethrows`.
Key theorems: `CutRun.next`, `Cuts.bind`, `Cuts.attempt`.
-/
import ShadeNet.Proofs.Delivery
import ShadeNet.Proofs.Step

namespace ShadeNet

variable {α β : Type} {limit : Nat}

/-- The outcome `o` of a run from `s` that writes entries, all of which arrive, beside
the outcome `p` of the run in which the record at place `limit` is refused. -/
def CutRun (limit : Nat) (s : PassState) (o p : Except Failure α × PassState) : Prop :=
  ∃ entries : List Entry,
    o.2.sent = s.sent ++ recordsOf entries ∧
    o.2.sink = s.sink.writeAll entries ∧
    (s.sent.length + (recordsOf entries).length ≤ limit → p = o) ∧
    ∀ earlier r later, entries = earlier ++ .record r :: later →
      s.sent.length + (recordsOf earlier).length = limit →
        p.1 = .error .sinkFull ∧ p.2.sink = s.sink.writeAll earlier

/-- The step `d` is the step `c` where the record at place `limit` is refused. -/
def Cuts (limit : Nat) (c d : Compile α) : Prop :=
  ∀ s : PassState, s.sink.unlimited = true → CutRun limit s (c.runOn s) (d.runOn s)

theorem CutRun.unlimited {s : PassState} {o p : Except Failure α × PassState}
    (h : CutRun limit s o p) (hs : s.sink.unlimited = true) : o.2.sink.unlimited = true := by
  obtain ⟨entries, -, hsink, -⟩ := h
  rw [hsink]
  exact Sink.unlimited_writeAll hs _

/-- A run that writes nothing. -/
theorem CutRun.of_quiet {s : PassState} {o : Except Failure α × PassState}
    (hsent : o.2.sent = s.sent) (hsink : o.2.sink = s.sink) : CutRun limit s o o := by
  refine ⟨[], by simp [hsent], by simp [hsink], fun _ => rfl, fun earlier r later he _ => ?_⟩
  exact absurd he (by simp)

/-- A run that goes on: the second one goes on as the first does if nothing was refused,
and hands the refusal on if something was. -/
theorem CutRun.next {s : PassState} {o p : Except Failure α × PassState}
    {o' p' q : Except Failure β × PassState} (h : CutRun limit s o p)
    (hmore : CutRun limit o.2 o' q) (hsame : p = o → p' = q)
    (hrefused : p.1 = .error .sinkFull → p'.1 = .error .sinkFull ∧ p'.2.sink = p.2.sink) :
    CutRun limit s o' p' := by
  obtain ⟨entries, hsent, hsink, heq, hcut⟩ := h
  obtain ⟨more, hsent', hsink', heq', hcut'⟩ := hmore
  have hlen : o.2.sent.length = s.sent.length + (recordsOf entries).length := by
    rw [hsent, List.length_append]
  refine ⟨entries ++ more, ?_, ?_, fun hle => ?_, fun earlier r later he hplace => ?_⟩
  · rw [hsent', hsent, recordsOf_append, List.append_assoc]
  · rw [hsink', hsink, Sink.writeAll_append]
  · rw [recordsOf_append, List.length_append] at hle
    rw [hsame (heq (by omega))]
    exact heq' (by omega)
  · -- the refused record is one of those behind `first`, or one of the first run's own
    have hlater : ∀ first, earlier = entries ++ first → more = first ++ .record r :: later →
        p'.1 = .error .sinkFull ∧ p'.2.sink = s.sink.writeAll earlier := by
      rintro first rfl hm
      rw [recordsOf_append, List.length_append] at hplace
      rw [hsame (heq (by omega)), Sink.writeAll_append, ← hsink]
      exact hcut' first r later hm (by omega)
    rcases List.append_eq_append_iff.mp he with ⟨first, hf, hm⟩ | ⟨last, hl, hm⟩
    · exact hlater first hf hm
    · cases last with
      | nil => exact hlater [] (by simpa using hl.symm) (by simpa using hm.symm)
      | cons e rest =>
        obtain ⟨rfl, -⟩ := List.cons.inj hm
        have hp := hcut earlier r rest hl hplace
        have hp' := hrefused hp.1
        exact ⟨hp'.1, hp'.2.trans hp.2⟩

/-! ### Steps -/

theorem Cuts.of_quiet {c : Compile α}
    (h : ∀ s, (c.runOn s).2.sent = s.sent ∧ (c.runOn s).2.sink = s.sink) : Cuts limit c c :=
  fun s _ => .of_quiet (h s).1 (h s).2

theorem cuts_pure (a : α) : Cuts limit (pure a) (pure a) := .of_quiet fun _ => ⟨rfl, rfl⟩

theorem cuts_throw (f : Failure) : Cuts limit (throw f : Compile α) (throw f) :=
  .of_quiet fun _ => ⟨rfl, rfl⟩

theorem cuts_get : Cuts limit get get := .of_quiet fun _ => ⟨rfl, rfl⟩

theorem cuts_report (line : LogLine) : Cuts limit (report line) (report line) :=
  .of_quiet fun _ => ⟨rfl, rfl⟩

theorem cuts_modifyLedger (f : Ledger → Ledger) :
    Cuts limit (modifyLedger f) (modifyLedger f) := .of_quiet fun _ => ⟨rfl, rfl⟩

theorem cuts_claimName (base : String) : Cuts limit (claimName base) (claimName base) :=
  .of_quiet fun _ => ⟨rfl, rfl⟩

theorem cuts_replaceScope (scope : Option ObjectScope) :
    Cuts limit (replaceScope scope) (replaceScope scope) := .of_quiet fun _ => ⟨rfl, rfl⟩

/-- A step after another one. -/
theorem Cuts.bind {c d : Compile α} {f g : α → Compile β} (hc : Cuts limit c d)
    (hf : ∀ a, Cuts limit (f a) (g a)) : Cuts limit (c >>= f) (d >>= g) := by
  intro s hs
  have h := hc s hs
  have ht := h.unlimited hs
  have hrefused : (d.runOn s).1 = .error .sinkFull → ((d >>= g).runOn s).1 = .error .sinkFull ∧
      ((d >>= g).runOn s).2.sink = (d.runOn s).2.sink := by
    intro he
    have hd : d.runOn s = (.error .sinkFull, (d.runOn s).2) := by rw [← he]
    rw [Compile.runOn_bind_error hd]
    exact ⟨rfl, rfl⟩
  rcases ho : c.runOn s with ⟨e | a, t⟩
  · rw [ho] at h
    rw [Compile.runOn_bind_error ho]
    exact h.next (.of_quiet rfl rfl) (fun he => Compile.runOn_bind_error he g) hrefused
  · rw [ho] at h ht
    rw [Compile.runOn_bind_ok ho]
    exact h.next (hf a t ht) (fun he => Compile.runOn_bind_ok he g) hrefused

/-- A handler that hands the refusal of a record on and writes nothing. -/
def Rethrows (g : Except Failure α → Compile β) : Prop :=
  ∀ t, ((g (.error .sinkFull)).runOn t).1 = .error .sinkFull ∧
    ((g (.error .sinkFull)).runOn t).2.sink = t.sink

/-- A step whose failures are handled, but for the refusal of a record. -/
theorem Cuts.attempt {c d : Compile α} {f g : Except Failure α → Compile β}
    (hc : Cuts limit c d) (hf : ∀ r, Cuts limit (f r) (g r)) (hg : Rethrows g) :
    Cuts limit (ShadeNet.attempt c >>= f) (ShadeNet.attempt d >>= g) := by
  intro s hs
  have h := hc s hs
  have ht := h.unlimited hs
  rw [Compile.runOn_bind_ok (Compile.runOn_attempt c s),
    Compile.runOn_bind_ok (Compile.runOn_attempt d s)]
  refine h.next (hf _ _ ht) (fun he => by rw [he]) fun he => ?_
  rw [he]
  exact hg _

theorem cuts_forM {f g : α → Compile Unit} {l : List α}
    (h : ∀ a ∈ l, Cuts limit (f a) (g a)) : Cuts limit (l.forM f) (l.forM g) := by
  induction l with
  | nil => exact cuts_pure _
  | cons a rest ih =>
    exact (h a List.mem_cons_self).bind fun _ => ih fun b hb => h b (List.mem_cons_of_mem a hb)

end ShadeNet
