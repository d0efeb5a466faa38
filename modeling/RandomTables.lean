import RandomTables.IndexPath.Replace
import RandomTables.Main
import RandomTables.RunLog.Feed
import RandomTables.Proofs.Draw.Recorded
import RandomTables.Proofs.Roll.Basic
import RandomTables.Proofs.Roll.Reproducible
import RandomTables.Proofs.Roll.InGroups
import RandomTables.Proofs.Roll.Logs
import RandomTables.Proofs.Roller.InGroups
import RandomTables.Proofs.Session.Basic
import RandomTables.Proofs.Session.Replayed
import RandomTables.Proofs.Roller.Run
import RandomTables.Proofs.Roller.Call
import RandomTables.Proofs.Roller.OwnDice
import RandomTables.Proofs.Dice.Sides
import RandomTables.Proofs.Definition.Sides
import RandomTables.Proofs.Registry.Loaded
import RandomTables.Proofs.Roll.Success
import RandomTables.Proofs.Roller.Success
import RandomTables.Proofs.Registry.Rollable
import RandomTables.Proofs.Roller.Rolled
import RandomTables.Proofs.Roller.Depth
import RandomTables.Proofs.Outcome.Below
import RandomTables.Proofs.Roller.Totals
import RandomTables.Proofs.Text.Stretch
import RandomTables.Proofs.Dice.Unreadable
import RandomTables.Proofs.Template.Unreadable
import RandomTables.Proofs.Definition.Unnamed
import RandomTables.Proofs.Definition.Errors
import RandomTables.Proofs.Registry.Completes
import RandomTables.Proofs.Roller.Reachable
import RandomTables.Proofs.Roller.Conforms
import RandomTables.Proofs.Template.Numbered
import RandomTables.Proofs.Roller.Expanded
import RandomTables.Proofs.Text.Numeral
import RandomTables.Proofs.Dice.Grammar
import RandomTables.Proofs.Dice.Accepted
import RandomTables.Proofs.Dice.Notation
import RandomTables.Proofs.IndexPath.Step
import RandomTables.Proofs.IndexPath.Lens
import RandomTables.Proofs.IndexPath.Apart
import RandomTables.Proofs.Roll.Seeded
import RandomTables.Proofs.Roller.Independent
import RandomTables.Proofs.Text.Pieces
import RandomTables.Proofs.Template.Balanced
import RandomTables.Proofs.Template.Spelling
import RandomTables.Proofs.Template.Inverse
import RandomTables.Proofs.Path.Segments
import RandomTables.Proofs.Path.Walk
import RandomTables.Proofs.Path.Reduced
import RandomTables.Proofs.Outcome.Lookups
import RandomTables.Proofs.Path.Again
import RandomTables.Proofs.Roller.Lookups
import RandomTables.Proofs.Roller.Retraced
import RandomTables.Proofs.Definition.Variables
import RandomTables.Proofs.Roller.Agreeing
import RandomTables.Proofs.Draw.Consecutive
import RandomTables.Proofs.Roll.Drawn
import RandomTables.Proofs.Session.Seeds
import RandomTables.Proofs.Roller.AllOrNothing
import RandomTables.Proofs.RunLog.Archive
import RandomTables.Proofs.TableDirectory.Agreement
import RandomTables.Proofs.TableDirectory.Confined
import RandomTables.Proofs.Registry.Contents
import RandomTables.Proofs.IndexPath.Spelled
import RandomTables.Proofs.Outcome.Outlined
import RandomTables.Proofs.Roller.Turns
import RandomTables.Proofs.Dice.Accounted
import RandomTables.Proofs.Dice.Range
import RandomTables.Proofs.Template.Resolvable
import RandomTables.Proofs.Template.Runs
import RandomTables.Proofs.Template.SharedDraw
import RandomTables.Proofs.Template.Reading
import RandomTables.Proofs.Draw.Uniform
import RandomTables.Proofs.Template.Starts
import RandomTables.Proofs.Template.Positions
import RandomTables.Proofs.Template.Closed
import RandomTables.Proofs.Template.FirstLine
import RandomTables.Proofs.Dice.Legible
import RandomTables.Proofs.Reference.Settings
import RandomTables.Proofs.Reference.Spelled
import RandomTables.Proofs.Reference.Agreement
import RandomTables.Proofs.Path.Slashes
import RandomTables.Proofs.Definition.Numbered
import RandomTables.Proofs.Roller.Covered
import RandomTables.Proofs.Draw.Counted
