import ContingentPlan.Main
import ContingentPlan.Proofs.Catalog
import ContingentPlan.Proofs.FreshName
import ContingentPlan.Proofs.Graph.Naming
import ContingentPlan.Proofs.Graph.Edges
import ContingentPlan.Proofs.Graph.Linkage
import ContingentPlan.Proofs.Graph.Completion
import ContingentPlan.Proofs.Reading.Action
import ContingentPlan.Proofs.Reading.Run
import ContingentPlan.Proofs.Reading.Sound
import ContingentPlan.Proofs.Plan.CrossReference
import ContingentPlan.Proofs.Plan.Numbering
import ContingentPlan.Proofs.Reading.Follow
import ContingentPlan.Proofs.Plan.Merging
import ContingentPlan.Proofs.Plan.Forking
import ContingentPlan.Proofs.Graph.Registry
import ContingentPlan.Proofs.Plan.Gating
import ContingentPlan.Proofs.Plan.Rooting
import ContingentPlan.Proofs.Condition
import ContingentPlan.Proofs.Graph.Records
import ContingentPlan.Proofs.Resolution
import ContingentPlan.Proofs.Plan.Knowledge
import ContingentPlan.Proofs.Domain
import ContingentPlan.Proofs.Plan.Shape
import ContingentPlan.Proofs.Plan.Failure
import ContingentPlan.Proofs.Trace.Block
import ContingentPlan.Proofs.Plan.Prolongation
import ContingentPlan.Proofs.Controller.Signals
import ContingentPlan.Proofs.Controller.Listing
import ContingentPlan.Proofs.Controller.Layout
import ContingentPlan.Proofs.Plan.Program
import ContingentPlan.Proofs.Reading.Warnings
import ContingentPlan.Proofs.Text.Deletion
import ContingentPlan.Proofs.Trace.Announcement
import ContingentPlan.Proofs.Plan.Anomaly
import ContingentPlan.Proofs.Plan.Export
import ContingentPlan.Proofs.Session
import ContingentPlan.Proofs.Text.Lowercase
import ContingentPlan.Proofs.Trace.Words
import ContingentPlan.Proofs.Plan.Wording
import ContingentPlan.Proofs.Plan.Renumbering
import ContingentPlan.Proofs.Grounding
import ContingentPlan.Proofs.Json.RoundTrip
import ContingentPlan.Proofs.Plan.Interchange
import ContingentPlan.Proofs.CommandLine.Ending
import ContingentPlan.Proofs.Graph.Supply
import ContingentPlan.Proofs.ResolutionOrder
import ContingentPlan.Proofs.Signature
import ContingentPlan.Proofs.Plan.Provenance
import ContingentPlan.Proofs.Plan.Classification
import ContingentPlan.Proofs.Normalization
import ContingentPlan.Proofs.CommandLine.Override
import ContingentPlan.Proofs.Plan.Clash
import ContingentPlan.Proofs.Plan.Conservation
import ContingentPlan.Proofs.Probing
