import EditorLink.Config.Storage
import EditorLink.Config.Written
import EditorLink.Editor.Desk
import EditorLink.Editor.Workbench
import EditorLink.Link.Tour
import EditorLink.Log.Logger
import EditorLink.Model.Session
import EditorLink.Promise.Session
import EditorLink.Proofs.Clearing
import EditorLink.Proofs.Supersession
import EditorLink.Proofs.Vacancy
import EditorLink.Proofs.Window
import EditorLink.Proofs.Wired
import EditorLink.Proofs.Scheduled
import EditorLink.Proofs.Promise.Run
import EditorLink.Proofs.Promise.Move
import EditorLink.Proofs.Promise.WellFormed
import EditorLink.Proofs.Promise.Observers
import EditorLink.Proofs.Promise.Computation
import EditorLink.Proofs.Promise.Cancelling
import EditorLink.Proofs.Promise.Delivery
import EditorLink.Proofs.Begun
import EditorLink.Proofs.Serene
import EditorLink.Proofs.Outcome
import EditorLink.Proofs.Uncaching
import EditorLink.Proofs.Creation
import EditorLink.Proofs.Ending
import EditorLink.Proofs.Waking
import EditorLink.Proofs.Enrolled
import EditorLink.Proofs.Checks
import EditorLink.Proofs.Stopping
import EditorLink.Proofs.Punctual
import EditorLink.Proofs.Updating
import EditorLink.Proofs.Debounce
import EditorLink.Proofs.Requests
import EditorLink.Proofs.Answers
import EditorLink.Proofs.Correspondence
import EditorLink.Proofs.Sides
import EditorLink.Proofs.Abreast
import EditorLink.Proofs.Alongside
import EditorLink.Proofs.Tandem
import EditorLink.Proofs.Isolation
import EditorLink.Proofs.Slots.Independence
import EditorLink.Proofs.Switching
import EditorLink.Proofs.LastCall
import EditorLink.Proofs.Config.RoundTrip
import EditorLink.Proofs.Chained
import EditorLink.Proofs.Sifting
import EditorLink.Proofs.Promise.Thinning
import EditorLink.Proofs.Promise.Leaving
import EditorLink.Proofs.Promise.Draining
import EditorLink.Proofs.Promise.Cause
import EditorLink.Proofs.Promise.Omission
import EditorLink.Proofs.Promise.Transparency
import EditorLink.Proofs.Reporting
