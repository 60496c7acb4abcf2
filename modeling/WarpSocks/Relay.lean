import WarpSocks.Io
import WarpSocks.Wire.Reader

/-!
# Relaying a byte stream

The upload direction of `copy_with_drain`: `tokio::io::copy` from the client to the target.  The end of the download
direction may stop it after any number of rounds, so the rounds are counted.
-/

namespace WarpSocks.Relay

open Wire (Reader Writer)

/-- The buffer of `tokio::io::copy`. -/
def BUFFER_SIZE : Nat := 8 * 1024

/-- The first rounds of `tokio::io::copy`; `none` if it has not ended by then. -/
def copy : Nat → Reader IoError → Writer IoError → Option (Except IoError Unit) × Reader IoError × Writer IoError
  | 0, r, w => (none, r, w)
  | rounds + 1, r, w =>
    match r.read BUFFER_SIZE with
    | (.error e, r) => (some (.error e), r, w)
    | (.ok [], r) => (some (.ok ()), r, w)
    | (.ok (b :: bs), r) =>
      match w.writeAll (b :: bs) with
      | (.error e, w) => (some (.error e), r, w)
      | (.ok (), w) => copy rounds r w

/-- What has been written and what has not been read are together the bytes of the stream. -/
private theorem copy_conserves (rounds : Nat) (r : Reader IoError) (w : Writer IoError) (hw : w.fault = none) :
    (copy rounds r w).2.2.written ++ (copy rounds r w).2.1.bytes = w.written ++ r.bytes := by
  induction rounds generalizing r w with
  | zero => rfl
  | succ rounds ih =>
    by_cases hr : r.bytes = []
    · rw [copy, Reader.read_of_nil (by decide) hr]
      cases r.fault <;> rfl
    · obtain ⟨x, y, hx, -, hxy, r', hread, hb, -⟩ := Reader.read_of_ne_nil (n := BUFFER_SIZE) (by decide) hr
      obtain ⟨b, bs, rfl⟩ := List.exists_cons_of_ne_nil hx
      have hcopy : copy (rounds + 1) r w = copy rounds r' ⟨w.written ++ b :: bs, none⟩ := by
        rw [copy, hread]
        simp only [Writer.writeAll_of_none hw]
      rw [hcopy, ih r' _ rfl, hb, hxy, List.append_assoc]

/-- Enough rounds copy everything, each at least one byte. -/
private theorem copy_complete (rounds : Nat) (r : Reader IoError) (w : Writer IoError) (hw : w.fault = none)
    (hrounds : r.bytes.length < rounds) :
    ∃ result, (copy rounds r w).1 = some result ∧ (copy rounds r w).2.2.written = w.written ++ r.bytes := by
  induction rounds generalizing r w with
  | zero => omega
  | succ rounds ih =>
    by_cases hr : r.bytes = []
    · rw [copy, Reader.read_of_nil (by decide) hr, hr, List.append_nil]
      cases r.fault with
      | none => exact ⟨_, rfl, rfl⟩
      | some e => exact ⟨_, rfl, rfl⟩
    · obtain ⟨x, y, hx, -, hxy, r', hread, hb, -⟩ := Reader.read_of_ne_nil (n := BUFFER_SIZE) (by decide) hr
      obtain ⟨b, bs, rfl⟩ := List.exists_cons_of_ne_nil hx
      have hcopy : copy (rounds + 1) r w = copy rounds r' ⟨w.written ++ b :: bs, none⟩ := by
        rw [copy, hread]
        simp only [Writer.writeAll_of_none hw]
      have hlen : r'.bytes.length < rounds := by
        rw [hxy, List.length_append, List.length_cons] at hrounds
        rw [hb]
        omega
      obtain ⟨result, hres, hwritten⟩ := ih r' ⟨w.written ++ b :: bs, none⟩ rfl hlen
      rw [hcopy]
      refine ⟨result, hres, ?_⟩
      rw [hwritten, hb, hxy, List.append_assoc]

/-- What a tunnel uploads: at any time a front of the stream, and with enough rounds all of it. -/
theorem copy_exact (rounds : Nat) (r : Reader IoError) (w : Writer IoError) (hw : w.fault = none) :
    (copy rounds r w).2.2.written ++ (copy rounds r w).2.1.bytes = w.written ++ r.bytes ∧
      (r.bytes.length < rounds → (copy rounds r w).2.2.written = w.written ++ r.bytes) := by
  refine ⟨copy_conserves rounds r w hw, fun hlt => ?_⟩
  obtain ⟨_, -, hcopy⟩ := copy_complete rounds r w hw hlt
  exact hcopy

end WarpSocks.Relay
