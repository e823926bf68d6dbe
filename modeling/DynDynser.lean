import DynDynser.Common.Json.Canonical
import DynDynser.Authorisation
import DynDynser.Meeting
import DynDynser.Signing
import DynDynser.Concurrency
import DynDynser.Cleanup
import DynDynser.Independence
import DynDynser.Trust
import DynDynser.Batch
import DynDynser.Reporting
import DynDynser.Unprivileged
import DynDynser.Binding
import DynDynser.Document
import DynDynser.Domains
import DynDynser.KeyFiles
import DynDynser.Grammar
import DynDynser.Leftovers
import DynDynser.Overwrites
import DynDynser.Recovery
import DynDynser.RequestSigning
import DynDynser.Provenance
import DynDynser.Convergence
import DynDynser.Isolation
import DynDynser.Crashes
import DynDynser.Preview
import DynDynser.Quiescence
import DynDynser.Outcomes
import DynDynser.Delivery
import DynDynser.Responses
import DynDynser.CommandLine
