import DiskGauge.Proofs.Json.Reading

namespace DiskGauge.Json

variable {α β σ : Type} {bytes rest more : Bytes} {b : UInt8} {n : Number} {negative : Bool}

theorem skipBlanks_suffix (bytes : Bytes) : skipBlanks bytes <:+ bytes := by
  induction bytes with
  | nil => exact List.suffix_rfl
  | cons b more ih =>
    unfold skipBlanks
    split
    · exact ih.trans (List.suffix_cons b more)
    · exact List.suffix_rfl

theorem solid_suffix (found : skipBlanks bytes = b :: more) : b :: more <:+ bytes :=
  found ▸ skipBlanks_suffix bytes

theorem behind_suffix (found : skipBlanks bytes = b :: more) : more <:+ bytes :=
  (List.suffix_cons b more).trans (solid_suffix found)

theorem readWord_suffix {word : Bytes} (read : readWord word bytes = .ok rest) : rest <:+ bytes := by
  fun_induction readWord word bytes with
  | case1 bytes =>
    cases read
    exact List.suffix_rfl
  | case2 => cases read
  | case3 word b more ih => exact (ih read).trans (List.suffix_cons ..)
  | case4 => cases read

theorem readStringOnto_suffix {taken : Bytes} {skip : Nat} {s : String}
    (read : readStringOnto taken skip bytes = .ok (s, rest)) : rest <:+ bytes := by
  fun_induction readStringOnto taken skip bytes with
  | case1 => cases read
  | case2 taken skip b more ih => exact (ih read).trans (List.suffix_cons b more)
  | case3 taken b more =>
    cases read
    exact List.suffix_cons ..
  | case4 => cases read
  | case5 taken _ more _ _ _ ih => exact (ih read).trans (List.suffix_cons ..)
  | case6 => cases read
  | case7 => cases read
  | case8 taken b more _ _ _ ih => exact (ih read).trans (List.suffix_cons b more)

theorem takeFitting_suffix (value count : Nat) (bytes : Bytes) : (takeFitting value count bytes).2.2 <:+ bytes := by
  fun_induction takeFitting value count bytes with
  | case1 => exact List.suffix_rfl
  | case2 value count b more _ ih => exact ih.trans (List.suffix_cons b more)
  | case3 => exact List.suffix_rfl

theorem dropDigits_suffix (count : Nat) (bytes : Bytes) : (dropDigits count bytes).2 <:+ bytes := by
  fun_induction dropDigits count bytes with
  | case1 => exact List.suffix_rfl
  | case2 count b more _ ih => exact ih.trans (List.suffix_cons b more)
  | case3 => exact List.suffix_rfl

theorem finishFloat_suffix {significand : Nat} {exponent : Int}
    (read : finishFloat negative significand exponent bytes = .ok (n, rest)) : rest <:+ bytes := by
  unfold finishFloat at read
  split at read
  · cases read
    exact List.suffix_rfl
  · cases read

theorem readExponentDigits_suffix {significand exponent : Nat} {start : Int} {down : Bool}
    (read : readExponentDigits negative significand start down exponent bytes = .ok (n, rest)) : rest <:+ bytes := by
  fun_induction readExponentDigits negative significand start down exponent bytes with
  | case1 => exact finishFloat_suffix read
  | case2 exponent b more _ _ ih => exact (ih read).trans (List.suffix_cons b more)
  | case3 => cases read
  | case4 exponent b more =>
    cases read
    exact (dropDigits_suffix 0 more).trans (List.suffix_cons b more)
  | case5 => exact finishFloat_suffix read

theorem readExponent_suffix {significand : Nat} {start : Int}
    (read : readExponent negative significand start bytes = .ok (n, rest)) : rest <:+ bytes := by
  unfold readExponent at read
  split at read
  next down left same =>
    have start : left <:+ bytes := by
      split at same
      · split at same
        · cases same
          exact List.suffix_cons ..
        · split at same
          · cases same
            exact List.suffix_cons ..
          · cases same
            exact List.suffix_rfl
      · cases same
        exact List.suffix_rfl
    split at read
    · cases read
    · next b more =>
      have behind : more <:+ bytes := (List.suffix_cons b more).trans start
      split at read
      · exact (readExponentDigits_suffix read).trans behind
      · cases read

theorem readTail_suffix {significand : Nat} {exponent : Int}
    (read : readTail negative significand exponent bytes = .ok (n, rest)) : rest <:+ bytes := by
  unfold readTail at read
  split at read
  · split at read
    · exact (readExponent_suffix read).trans (List.suffix_cons ..)
    · exact finishFloat_suffix read
  · exact finishFloat_suffix read

theorem readFraction_suffix {significand : Nat} {exponent : Int}
    (read : readFraction negative significand exponent bytes = .ok (n, rest)) : rest <:+ bytes := by
  have fitting := takeFitting_suffix significand 0 bytes
  unfold readFraction at read
  dsimp only at read
  split at read
  · exact (readTail_suffix read).trans ((dropDigits_suffix ..).trans fitting)
  · split at read
    · split at read <;> cases read
    · exact (readTail_suffix read).trans fitting

theorem readAfterDigits_suffix {significand : Nat}
    (read : readAfterDigits negative significand bytes = .ok (n, rest)) : rest <:+ bytes := by
  unfold readAfterDigits at read
  split at read
  · split at read
    · exact (readFraction_suffix read).trans (List.suffix_cons ..)
    · split at read
      · exact (readExponent_suffix read).trans (List.suffix_cons ..)
      · cases read
        exact List.suffix_rfl
  · cases read
    exact List.suffix_rfl

theorem readUnsigned_suffix (read : readUnsigned negative bytes = .ok (n, rest)) : rest <:+ bytes := by
  unfold readUnsigned at read
  split at read
  · cases read
  · next b more =>
    have after := List.suffix_cons b more
    split at read
    · split at read
      · cases read
      · exact (readAfterDigits_suffix read).trans after
    · split at read
      · have fitting := (takeFitting_suffix (digitValue b) 0 more).trans after
        dsimp only at read
        split at read
        · have dropped := (dropDigits_suffix 0 (takeFitting (digitValue b) 0 more).2.2).trans fitting
          split at read
          · next same =>
            split at read
            · exact (readFraction_suffix read).trans ((List.suffix_cons ..).trans (same ▸ dropped))
            · exact (readTail_suffix read).trans dropped
          · exact (readTail_suffix read).trans dropped
        · exact (readAfterDigits_suffix read).trans fitting
      · cases read

theorem readNumber_suffix (read : readNumber bytes = .ok (n, rest)) : rest <:+ bytes := by
  unfold readNumber at read
  split at read
  · split at read
    · exact (readUnsigned_suffix read).trans (List.suffix_cons ..)
    · exact readUnsigned_suffix read
  · cases read

theorem skipStringOn_suffix {skip : Nat} (skipped : skipStringOn skip bytes = .ok rest) : rest <:+ bytes := by
  fun_induction skipStringOn skip bytes with
  | case2 skip b more ih => exact (ih skipped).trans (List.suffix_cons b more)
  | case3 more =>
    cases skipped
    exact List.suffix_cons ..
  | case5 _ _ _ _ ih => exact (ih skipped).trans (List.suffix_cons ..)
  | case6 _ _ _ _ _ ih => exact (ih skipped).trans (List.suffix_cons ..)
  | case10 _ _ _ _ _ ih => exact (ih skipped).trans (List.suffix_cons ..)
  | _ => cases skipped

theorem skipExponent_suffix (skipped : skipExponent bytes = .ok rest) : rest <:+ bytes := by
  unfold skipExponent at skipped
  extract_lets signed at skipped
  have start : signed <:+ bytes := by
    unfold signed
    split
    · split
      · exact List.suffix_cons ..
      · exact List.suffix_rfl
    · exact List.suffix_rfl
  clear_value signed
  split at skipped
  · next b more =>
    have behind : more <:+ bytes := (List.suffix_cons b more).trans start
    split at skipped
    · cases skipped
      exact (dropDigits_suffix 0 more).trans behind
    · cases skipped
  · cases skipped

theorem skipFraction_suffix (skipped : skipFraction bytes = .ok rest) : rest <:+ bytes := by
  have dropped := dropDigits_suffix 0 bytes
  unfold skipFraction at skipped
  split at skipped
  · split at skipped
    · next b more same =>
      have here : b :: more <:+ bytes := same ▸ dropped
      split at skipped
      · exact (skipExponent_suffix skipped).trans ((List.suffix_cons b more).trans here)
      · cases skipped
        exact here
    · cases skipped
      exact List.nil_suffix
  · cases skipped

theorem skipAfterDigits_suffix (skipped : skipAfterDigits bytes = .ok rest) : rest <:+ bytes := by
  unfold skipAfterDigits at skipped
  split at skipped
  · split at skipped
    · exact (skipFraction_suffix skipped).trans (List.suffix_cons ..)
    · split at skipped
      · exact (skipExponent_suffix skipped).trans (List.suffix_cons ..)
      · cases skipped
        exact List.suffix_rfl
  · cases skipped
    exact List.suffix_rfl

theorem skipUnsigned_suffix (skipped : skipUnsigned bytes = .ok rest) : rest <:+ bytes := by
  unfold skipUnsigned at skipped
  split at skipped
  · cases skipped
  · next b more =>
    have after := List.suffix_cons b more
    split at skipped
    · split at skipped
      · cases skipped
      · exact (skipAfterDigits_suffix skipped).trans after
    · split at skipped
      · exact (skipAfterDigits_suffix skipped).trans ((dropDigits_suffix 0 more).trans after)
      · cases skipped

theorem skipScalar_suffix (skipped : skipScalar b more = .ok rest) : rest <:+ b :: more := by
  have after := List.suffix_cons b more
  unfold skipScalar at skipped
  split at skipped
  · exact (readWord_suffix skipped).trans after
  split at skipped
  · exact (readWord_suffix skipped).trans after
  split at skipped
  · exact (readWord_suffix skipped).trans after
  split at skipped
  · exact (skipUnsigned_suffix skipped).trans after
  split at skipped
  · exact skipUnsigned_suffix skipped
  split at skipped
  · exact (skipStringOn_suffix skipped).trans after
  · cases skipped

theorem of_bind {outcome : Except Stop β} {next : β → Except Stop α} {a : α} (done : outcome >>= next = .ok a) :
    ∃ b, outcome = .ok b ∧ next b = .ok a := by
  cases outcome with
  | error stop => cases done
  | ok b => exact ⟨b, rfl, done⟩

theorem of_inMember {name : String} {outcome : Except Stop α} {a : α} (done : inMember name outcome = .ok a) :
    outcome = .ok a := by
  cases outcome with
  | error stop => cases done
  | ok b => exact done

theorem skipItemHead_suffix {bracket : Bracket} (skipped : skipItemHead bracket bytes = .ok rest) :
    rest <:+ bytes := by
  unfold skipItemHead at skipped
  split at skipped
  · cases skipped
    exact List.suffix_rfl
  · split at skipped
    · cases skipped
    · next b more found =>
      split at skipped
      · cases skipped
      · obtain ⟨behind, string, colon⟩ := of_bind skipped
        have after := (skipStringOn_suffix string).trans (behind_suffix found)
        split at colon
        · cases colon
        · next found =>
          split at colon
          · cases colon
            exact (behind_suffix found).trans after
          · cases colon

theorem skipOn_suffix {steps : Nat} {awaited : Awaited} {stack : List Bracket}
    (skipped : skipOn steps awaited stack bytes = .ok rest) : rest <:+ bytes := by
  fun_induction skipOn steps awaited stack bytes with
  | case3 _ _ _ _ found ih => exact (ih skipped).trans (behind_suffix found)
  | case4 _ _ _ _ found _ ih => exact (ih skipped).trans (behind_suffix found)
  | case5 _ _ _ _ _ found _ _ _ scalar ih =>
    exact (ih skipped).trans ((skipScalar_suffix scalar).trans (solid_suffix found))
  | case7 =>
    cases skipped
    exact List.suffix_rfl
  | case9 _ _ _ _ _ _ _ found ih => exact (ih skipped).trans (behind_suffix found)
  | case10 _ _ _ _ _ _ found _ _ head _ ih =>
    exact (ih skipped).trans ((skipItemHead_suffix head).trans (solid_suffix found))
  | case12 _ _ _ _ _ _ _ _ _ head found _ ih =>
    exact (ih skipped).trans ((skipItemHead_suffix head).trans (behind_suffix found))
  | _ => cases skipped

theorem afterColon_suffix (passed : afterColon bytes = .ok rest) : rest <:+ bytes := by
  unfold afterColon at passed
  split at passed
  · cases passed
  · next b more found =>
    split at passed
    · cases passed
      exact behind_suffix found
    · cases passed

def HandsOn (read : Reader α) : Prop := ∀ bytes value rest, read bytes = .ok (value, rest) → rest <:+ bytes

theorem readNumberAs_handsOn (expected : String) (accept : Number → Except Schema.Mismatch α) :
    HandsOn (readNumberAs expected accept) := by
  intro bytes value rest read
  unfold readNumberAs at read
  split at read
  · cases read
  · next b more found =>
    split at read
    · obtain ⟨⟨n, behind⟩, number, accepted⟩ := of_bind read
      dsimp only at accepted
      split at accepted
      · cases accepted
        exact (readNumber_suffix number).trans (solid_suffix found)
      · cases accepted
    · obtain ⟨stop, refused⟩ := refuse_stops (α := α) expected (b :: more)
      rw [refused] at read
      cases read

theorem fill_handsOn (name : String) (place : Option α) {read : Reader α} (handsOn : HandsOn read) :
    HandsOn (fill name place read) := by
  intro bytes value rest filled
  unfold fill at filled
  split at filled
  · cases filled
  · obtain ⟨behind, colon, filled⟩ := of_bind filled
    obtain ⟨_, member, done⟩ := of_bind filled
    cases done
    exact (handsOn behind _ _ (of_inMember member)).trans (afterColon_suffix colon)

theorem skipMember_handsOn (name : String) (s : σ) : HandsOn (skipMember name s) := by
  intro bytes value rest skipped
  unfold skipMember at skipped
  obtain ⟨behind, colon, skipped⟩ := of_bind skipped
  obtain ⟨left, passed, done⟩ := of_bind skipped
  cases done
  exact (skipOn_suffix (of_inMember passed)).trans (afterColon_suffix colon)

theorem nameStart_suffix {first : Bool} (started : foldMembers.nameStart first b more = .ok rest) :
    rest <:+ more := by
  unfold foldMembers.nameStart at started
  split at started
  · split at started
    · cases started
      exact List.suffix_rfl
    · cases started
  · split at started
    · split at started
      · cases started
      · next found =>
        split at started
        · cases started
          exact behind_suffix found
        · split at started <;> cases started
    · cases started

-- Members that were read in full have a closing bracket behind them.
theorem foldMembers_closed {member : String → σ → Reader σ} (handsOn : ∀ name s, HandsOn (member name s))
    {steps : Nat} {first : Bool} {s t : σ} (read : foldMembers member steps first s bytes = .ok (t, rest)) :
    0x7D ∈ bytes := by
  induction steps generalizing first s bytes with
  | zero => cases read
  | succ steps ih =>
    unfold foldMembers at read
    split at read
    · cases read
    · next b more found =>
      split at read
      · next close => exact (solid_suffix found).mem (close ▸ List.mem_cons_self ..)
      · split at read
        · cases read
        · next started =>
          split at read
          · cases read
          · next name behind named =>
            split at read
            · cases read
            · next taken =>
              have inside := ih read
              have value := (handsOn name s _ _ _ taken).trans (readStringOnto_suffix named)
              exact (value.trans ((nameStart_suffix started).trans (behind_suffix found))).mem inside

end DiskGauge.Json
