import KeyCapsule.Proofs.SelfTest
import KeyCapsule.Proofs.Logging
import KeyCapsule.Proofs.Length
import KeyCapsule.Proofs.Tally
import KeyCapsule.Proofs.Misdraw
import KeyCapsule.Proofs.Encoding
import KeyCapsule.Proofs.Schedule
import KeyCapsule.Proofs.Servable
import KeyCapsule.Proofs.Secrecy
import KeyCapsule.Proofs.Blameless
import KeyCapsule.Proofs.Degenerate
import KeyCapsule.Proofs.Conformity
import KeyCapsule.Proofs.Image
import KeyCapsule.Proofs.Session
import KeyCapsule.Proofs.Binding
import KeyCapsule.Proofs.Refusal
import KeyCapsule.Proofs.RoundTrip
import KeyCapsule.Proofs.Contract
import KeyCapsule.Hkdf.Labeled
import KeyCapsule.Datum.Sequence
import KeyCapsule.Act
import KeyCapsule.Kem
import KeyCapsule.Rehearsal.Echo
import KeyCapsule.Rehearsal.Faulty
import KeyCapsule.Main
import KeyCapsule.SecretKey
import KeyCapsule.SecretKey.Attributes
import KeyCapsule.Provider.Changed
import KeyCapsule.Source.Scripted
import KeyCapsule.Datum.Order
import KeyCapsule.Datum
import KeyCapsule.Kind
import KeyCapsule.Text.Reading
import KeyCapsule.Text.Quoted
import KeyCapsule.Binary64
