import WinAirPlay.Raop.Handling

/-! # The pairing of a connection

On the requests that return, the checked handlers do to the pairing what the handlers of
`Pairing/Verify` do. So what holds of every connection there holds of the checked one: no history
finishes the pairing.
-/

namespace WinAirPlay.Raop
open Foundations.ByteBuffer Foundations.CheckedMemory
set_option autoImplicit false

section
variable {P : Openssl} {F : Playfair} {L : Libplist} {conn conn' : RaopConnS} {x : RaopExchange}
  {o : Outcome}

theorem OnlySessions.raopConn (h : OnlySessions conn conn') :
    conn'.toRaopConn = conn.toRaopConn := by
  rw [h]

theorem OnlyFairplay.raopConn (h : OnlyFairplay conn conn') :
    conn'.toRaopConn = conn.toRaopConn := by
  rw [h]

/-- Apart from the two handlers of the pairing, none changes it. -/
theorem runHandler_other {handler : Option RaopHandler} (hsetup : handler ≠ some .pairsetup)
    (hverify : handler ≠ some .pairverify) (h : runHandler P F L handler conn x = .ok o) :
    o.conn.toRaopConn = conn.toRaopConn := by
  match handler with
  | some .info => rw [raopHandlerInfo_conn h]
  | some .pairsetup => exact absurd rfl hsetup
  | some .pairverify => exact absurd rfl hverify
  | some .fpsetup => exact (raopHandlerFpsetup_fairplay h).raopConn
  | some .setup => exact (raopHandlerSetup_sessions h).raopConn
  | some .getParameter => rw [raopHandlerGetParameter_conn h]
  | some .setParameter => rw [raopHandlerSetParameter_conn h]
  | some .flush => rw [flushRequest_conn h]
  | some .teardown =>
    cases h
    exact (teardownRequest_sessions conn x).raopConn
  | some .options | some .feedback | some .record | none =>
    cases h
    rfl

theorem raopHandlerPairsetup_raopConn (hbody : x.request.data.length < 2 ^ 31)
    (h : raopHandlerPairsetup P conn x = .ok o) (response : HttpResponse) :
    o.conn.toRaopConn =
      (WinAirPlay.raopHandlerPairsetup P conn.toRaopConn x.request response).conn := by
  unfold raopHandlerPairsetup httpRequestGetData at h
  unfold WinAirPlay.raopHandlerPairsetup
  rw [intOf_nat hbody] at h
  by_cases hlen : x.request.data.length = 32
  · rw [if_neg (by omega)] at h
    cases h
    rw [if_neg (not_not.mpr hlen)]
    rfl
  · rw [if_pos (by omega)] at h
    cases h
    rw [if_pos hlen]
    rfl

/-- A request that starts no handshake leaves the pairing alone there, too. -/
theorem pairverify_other (hbody : x.request.data.length < 2 ^ 31) (h : ¬ StartsHandshake conn x)
    (response : HttpResponse) (generated : Bytes) :
    (WinAirPlay.raopHandlerPairverify P conn.toRaopConn x.request response generated).conn =
      conn.toRaopConn := by
  unfold WinAirPlay.raopHandlerPairverify
  by_cases hstatus : conn.pairing.status = .setup
  · have hfinish : ∀ signature, pairingSessionFinish P conn.pairing signature =
        (-1, conn.pairing) := fun signature => if_pos (by simp [hstatus])
    rw [if_neg (by simp [pairingSessionCheckHandshakeStatus, hstatus])]
    dsimp only
    split_ifs with _ hone hlength
    · rfl
    · rfl
    · have hsize : x.request.data.length = 68 := not_not.mp hlength
      exact absurd ⟨hstatus, by rw [intOf_nat hbody, hsize]; rfl, hone⟩ h
    · rfl
    · rw [hfinish]
    · rw [hfinish]
    · rfl
  · rw [if_pos (by simp [pairingSessionCheckHandshakeStatus, hstatus])]

theorem raopHandlerPairverify_raopConn (hbody : x.request.data.length < 2 ^ 31)
    (h : raopHandlerPairverify P conn x = .ok o) (response : HttpResponse) :
    o.conn.toRaopConn =
      (WinAirPlay.raopHandlerPairverify P conn.toRaopConn x.request response x.generated).conn := by
  by_cases hstarts : StartsHandshake conn x
  · have hlength := hstarts.length
    rw [intOf_nat hbody] at hlength
    rw [raopHandlerPairverify_starts hstarts, pairingSessionHandshake,
      if_neg (by simp [hstarts.status])] at h
    obtain ⟨r, hr, h⟩ := bind_eq_ok.mp h
    obtain ⟨secret, -, hr⟩ := bind_eq_ok.mp hr
    cases hr
    cases h
    have hsize : x.request.data.length = 68 := by exact_mod_cast hlength
    unfold WinAirPlay.raopHandlerPairverify
    dsimp only
    rw [if_neg (by simp [pairingSessionCheckHandshakeStatus, hstarts.status]), if_neg (by omega),
      if_pos hstarts.phase, if_neg (by simp [hsize, x25519KeySize])]
    rfl
  · obtain ⟨o', ho', hconn, -⟩ := @raopHandlerPairverify_other P conn x hstarts
    rw [h] at ho'
    cases ho'
    rw [hconn, pairverify_other hbody hstarts]

variable (others : RaopHandler → RaopConn → HttpRequest → HttpResponse → HttpResponse × Bytes)

theorem runHandler_raopConn {handler : Option RaopHandler}
    (hbody : x.request.data.length < 2 ^ 31) (h : runHandler P F L handler conn x = .ok o)
    (response : HttpResponse) :
    o.conn.toRaopConn =
      (WinAirPlay.runHandler P others handler conn.toRaopConn x.toExchange response).conn := by
  match handler with
  | some .pairsetup => exact raopHandlerPairsetup_raopConn hbody h response
  | some .pairverify => exact raopHandlerPairverify_raopConn hbody h response
  | some .info | some .fpsetup | some .options | some .setup | some .getParameter
  | some .setParameter | some .feedback | some .record | some .flush | some .teardown | none =>
    exact runHandler_other (by decide) (by decide) h

/-- One request that returns does the same to the pairing in both models. -/
theorem connRequest_raopConn {garbage : ℕ → UInt8} (hbody : x.request.data.length < 2 ^ 31)
    {r : RaopConnS × Option ResponseBuffer.HttpResponseS × List MediaCall}
    (h : connRequest P F L garbage conn x = .ok r) :
    r.1.toRaopConn = (WinAirPlay.connRequest P others conn.toRaopConn x.toExchange).1 := by
  obtain ⟨hconn, hnot⟩ | ⟨method, o, hmethod, hcseq, ho, hconn⟩ := connRequest_conn h
  · rw [hconn, WinAirPlay.connRequest]
    obtain hnone | hnone := hnot
    · rw [hnone]
    · rw [hnone]
      split
      · next hsome => cases hsome
      · rfl
  · obtain ⟨response, -, hr⟩ :=
      connRequest_handled P others hmethod hcseq conn.toRaopConn
    dsimp only at hr
    rw [hr, hconn]
    exact runHandler_raopConn others hbody ho response

/-- A history whose bodies an `int` can count does the same to the pairing in both models. -/
theorem connRun_raopConn {garbage : ℕ → UInt8} {raopPairing : Pairing} {remote : Bytes}
    {history : List RaopExchange}
    (hrun : connRun P F L garbage (connInit raopPairing remote) history = .ok conn)
    (hbodies : ∀ x ∈ history, x.request.data.length < 2 ^ 31) :
    conn.toRaopConn = WinAirPlay.connRun P others (raopConnInit raopPairing)
      (history.map fun x => x.toExchange) := by
  refine @foldlM_invariant _ _ _ (fun conn history =>
    (∀ x ∈ history, x.request.data.length < 2 ^ 31) →
      conn.toRaopConn = WinAirPlay.connRun P others (raopConnInit raopPairing)
        (history.map fun x => x.toExchange)) _ (fun _ => rfl) ?_ _ _ hrun hbodies
  intro conn history x conn' hbefore hstep hbodies
  obtain ⟨r, hr, hstep⟩ := bind_eq_ok.mp hstep
  cases hstep
  rw [connRequest_raopConn others (hbodies x (by simp)) hr, List.map_append, connRun_append,
    ← hbefore fun y hy => hbodies y (by simp [hy])]
  rfl

/-- No history finishes the pairing of a checked connection. -/
theorem pairing_unfinished {garbage : ℕ → UInt8} {raopPairing : Pairing} {remote : Bytes}
    {history : List RaopExchange}
    (hrun : connRun P F L garbage (connInit raopPairing remote) history = .ok conn)
    (hbodies : ∀ x ∈ history, x.request.data.length < 2 ^ 31) :
    conn.pairing.status ≠ .finished := by
  have hsame := connRun_raopConn (fun _ _ _ response => (response, [])) hrun hbodies
  show conn.toRaopConn.pairing.status ≠ .finished
  rw [hsame]
  exact connRun_unfinished P _ raopPairing _

end

end WinAirPlay.Raop
