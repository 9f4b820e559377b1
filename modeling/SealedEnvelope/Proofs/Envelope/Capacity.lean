import SealedEnvelope.Proofs.Envelope.RoundTrip

/-!
# What fits an envelope (SPEC_FULL §4.4)

Whether a message is sealed depends on three lengths only: that of its encoding, the padding that is
drawn and the limit.  A message that does not fit costs the source the draw of the padding; one that
fits costs it the nonce besides.
-/

set_option autoImplicit false

namespace SealedEnvelope

namespace Envelope

variable {message : Message} (sender : PrivateKey) (receiver : PublicKey) {limit : Nat}
  {source : RandomSource}

/-- A message that does not fit is refused with the length that its box would have, before a nonce
is drawn. -/
theorem encrypt_of_lt
    (large : min limit maxContentLength
      < (Padding.pad message.encode source).1.length + SecretBox.tagSize) :
    encrypt message sender receiver limit source
      = (.error (.contentTooLarge (min limit maxContentLength)
          ((Padding.pad message.encode source).1.length + SecretBox.tagSize)),
        (Padding.pad message.encode source).2) := by
  unfold encrypt
  simp only [if_pos large]

/-- A message is sealed exactly if its encoding, the padding that is drawn and the tag fit. -/
theorem exists_encrypt_eq_ok_iff :
    (∃ envelope, (encrypt message sender receiver limit source).1 = .ok envelope)
      ↔ message.encode.length
          + (source.drawBetween (Padding.least message.encode.length) Padding.most).1
          + SecretBox.tagSize ≤ min limit maxContentLength := by
  rw [← Padding.length_pad]
  constructor
  · rintro ⟨envelope, h⟩
    exact (encrypt_eq_ok.1 h).1
  · intro fits
    obtain ⟨envelope, eq, _⟩ := encrypt_of_le sender receiver fits
    exact ⟨envelope, congrArg Prod.fst eq⟩

/-- The longest padding is drawn from some source, so what is always sealed fits with it. -/
theorem forall_exists_encrypt_eq_ok_iff :
    (∀ source, ∃ envelope, (encrypt message sender receiver limit source).1 = .ok envelope)
      ↔ message.encode.length + Padding.most + SecretBox.tagSize ≤ min limit maxContentLength := by
  have least := Padding.least_le_most message.encode.length
  constructor
  · intro every
    obtain ⟨source, eq⟩ :=
      RandomSource.exists_drawBetween_eq least (Nat.le_refl _) (by simp only [Padding.most]; omega)
    have fits := (exists_encrypt_eq_ok_iff sender receiver).1 (every source)
    rw [eq] at fits
    exact fits
  · intro fits source
    exact exists_encrypt_eq_ok message sender receiver source fits

/-- The shortest padding is drawn from some source, so what is ever sealed fits with it. -/
theorem exists_source_encrypt_eq_ok_iff :
    (∃ source envelope, (encrypt message sender receiver limit source).1 = .ok envelope)
      ↔ message.encode.length + Padding.least message.encode.length + SecretBox.tagSize
        ≤ min limit maxContentLength := by
  have least := Padding.least_le_most message.encode.length
  simp only [exists_encrypt_eq_ok_iff]
  constructor
  · rintro ⟨source, fits⟩
    have bounds := RandomSource.drawBetween_bounds least source
    omega
  · intro fits
    obtain ⟨source, eq⟩ :=
      RandomSource.exists_drawBetween_eq (Nat.le_refl _) least (by simp only [Padding.most]; omega)
    exact ⟨source, by rw [eq]; exact fits⟩

/-- What a sealed message takes of the source, and what it is sealed in. -/
theorem length_box_of_encrypt {envelope : Envelope} {after : RandomSource}
    (h : encrypt message sender receiver limit source = (.ok envelope, after)) :
    envelope.box.length = (Padding.pad message.encode source).1.length + SecretBox.tagSize
      ∧ (envelope.nonce, after) = (Padding.pad message.encode source).2.drawOctets .nonce := by
  have fits := (encrypt_eq_ok.1 (congrArg Prod.fst h)).1
  obtain ⟨made, eq, length, nonce⟩ := encrypt_of_le sender receiver fits
  cases eq.symm.trans h
  exact ⟨length, by rw [nonce]⟩

/-- A message is refused for its length alone, and only the padding is drawn for it. -/
theorem error_eq_of_encrypt {error : Error} {after : RandomSource}
    (h : encrypt message sender receiver limit source = (.error error, after)) :
    error = .contentTooLarge (min limit maxContentLength)
        ((Padding.pad message.encode source).1.length + SecretBox.tagSize)
      ∧ after = (Padding.pad message.encode source).2 := by
  have large : min limit maxContentLength
      < (Padding.pad message.encode source).1.length + SecretBox.tagSize := by
    apply Nat.lt_of_not_le
    intro fits
    obtain ⟨envelope, eq, _⟩ := encrypt_of_le sender receiver fits
    cases eq.symm.trans h
  cases (encrypt_of_lt sender receiver large).symm.trans h
  exact ⟨rfl, rfl⟩

/-- Let a message have an encoding of `length` bytes.  It is sealed with every padding exactly if
the longest one fits the limit, and with some padding exactly if the shortest one does, so never
below forty-eight bytes.  With the padding that a given source draws it is sealed exactly if that
one fits: in a box of the length that was compared, under the next twenty-four bytes of the source,
which are all that is taken of it.  Otherwise it is refused with that length, and nothing more is
taken of the source. -/
theorem encrypt_capacity (message : Message) (sender : PrivateKey) (receiver : PublicKey)
    (limit : Nat) :
    let length := message.encode.length
    let bound := min limit 4000
    let run := encrypt message sender receiver limit
    ((∀ source, ∃ envelope, (run source).1 = .ok envelope) ↔ length + 255 + 16 ≤ bound)
    ∧ ((∃ source envelope, (run source).1 = .ok envelope)
      ↔ length + Padding.least length + 16 ≤ bound)
    ∧ (bound < 48 → ∀ source envelope, (run source).1 ≠ .ok envelope)
    ∧ ∀ source : RandomSource,
      let padding := (source.drawBetween (Padding.least length) 255).1
      let rest := (source.drawBetween (Padding.least length) 255).2
      ((∃ envelope, (run source).1 = .ok envelope) ↔ length + padding + 16 ≤ bound)
      ∧ (∀ envelope after, run source = (.ok envelope, after) →
        envelope.box.length = length + padding + 16
          ∧ (envelope.nonce.toList, after) = rest.draw 24)
      ∧ ∀ error after, run source = (.error error, after) →
        error = .contentTooLarge bound (length + padding + 16) ∧ after = rest := by
  intro length bound run
  have some : (∃ source envelope, (run source).1 = .ok envelope)
      ↔ length + Padding.least length + 16 ≤ bound :=
    exists_source_encrypt_eq_ok_iff sender receiver
  have padded (source : RandomSource) := Padding.length_pad message.encode source
  refine ⟨forall_exists_encrypt_eq_ok_iff sender receiver, some, ?_, ?_⟩
  · intro low source envelope h
    have fits := some.1 ⟨source, envelope, h⟩
    have : 32 ≤ length + Padding.least length := by
      unfold Padding.least Padding.leastTotal
      omega
    omega
  · intro source
    refine ⟨exists_encrypt_eq_ok_iff sender receiver, ?_, ?_⟩
    · intro envelope after h
      obtain ⟨size, taken⟩ := length_box_of_encrypt sender receiver h
      rw [padded source] at size
      exact ⟨size, congrArg (fun drawn => (drawn.1.toList, drawn.2)) taken⟩
    · intro error after h
      obtain ⟨same, taken⟩ := error_eq_of_encrypt sender receiver h
      rw [padded source] at same
      exact ⟨same, taken⟩

/-- The empty text is sealed in forty-eight bytes with the shortest padding, and in no fewer. -/
theorem encrypt_capacity_empty_text :
    let sender : PrivateKey := ⟨List.replicate 32 1, rfl⟩
    let receiver : PublicKey := ⟨List.replicate 32 2, rfl⟩
    (∃ envelope after, encrypt (.text "") sender receiver 48 ⟨[]⟩ = (.ok envelope, after)
        ∧ envelope.box.length = 48)
      ∧ ∃ after, encrypt (.text "") sender receiver 47 ⟨[]⟩
        = (.error (.contentTooLarge 47 48), after) := by
  intro sender receiver
  constructor
  · obtain ⟨_, _, _, each⟩ := encrypt_capacity (.text "") sender receiver 48
    obtain ⟨fits, sealed, _⟩ := each ⟨[]⟩
    obtain ⟨envelope, eq⟩ := fits.2 (by decide)
    have pair : encrypt (.text "") sender receiver 48 ⟨[]⟩ = (.ok envelope, _) := Prod.ext eq rfl
    exact ⟨envelope, _, pair, (sealed envelope _ pair).1⟩
  · obtain ⟨_, _, never, each⟩ := encrypt_capacity (.text "") sender receiver 47
    obtain ⟨_, _, refused⟩ := each ⟨[]⟩
    cases h : (encrypt (.text "") sender receiver 47 ⟨[]⟩).1 with
    | ok envelope => exact absurd h (never (by decide) ⟨[]⟩ envelope)
    | error error =>
      have pair : encrypt (.text "") sender receiver 47 ⟨[]⟩ = (.error error, _) := Prod.ext h rfl
      obtain ⟨rfl, _⟩ := refused error _ pair
      exact ⟨_, pair⟩

end Envelope

end SealedEnvelope
